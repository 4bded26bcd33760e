import DeviceSnapshot.Pattern.Escape

/-!
# Bracketed classes

A class in brackets lists characters, ranges, escapes, named ASCII classes and further classes in
brackets, and may combine such lists by intersection, difference and symmetric difference, from left
to right. A hyphen stands for itself at the start and before the closing bracket; a closing bracket
does so at the very start. When case is ignored the set is closed under case before it is negated.
-/

namespace DeviceSnapshot

namespace Bracket

/-- The ASCII class with a name. -/
def named? (name : List Char) : Option CharSet :=
  let letters : CharSet := .union (.range 'a' 'z') (.range 'A' 'Z')
  let digits : CharSet := .range '0' '9'
  match String.ofList name with
  | "alnum" => some (.union letters digits)
  | "alpha" => some letters
  | "ascii" => some (.range '\x00' '\x7f')
  | "blank" => some (.union (.single ' ') (.single '\t'))
  | "cntrl" => some (.union (.range '\x00' '\x1f') (.single '\x7f'))
  | "digit" => some digits
  | "graph" => some (.range '!' '~')
  | "lower" => some (.range 'a' 'z')
  | "print" => some (.range ' ' '~')
  | "punct" => some (.unions [.range '!' '/', .range ':' '@', .range '[' '\x60', .range '\x7b' '~'])
  | "space" => some (.union (.range '\t' '\r') (.single ' '))
  | "upper" => some (.range 'A' 'Z')
  | "word" => some (.unions [letters, digits, .single '_'])
  | "xdigit" => some (.unions [digits, .range 'a' 'f', .range 'A' 'F'])
  | _ => none

/-- How two lists in one class are combined. -/
inductive Operator where
  | inter | diff | symmDiff

def Operator.apply : Operator → CharSet → CharSet → CharSet
  | .inter, s, t => .inter s t
  | .diff, s, t => s.diff t
  | .symmDiff, s, t => s.symmDiff t

/-- Close a set under case, when case is ignored. -/
def fold (ignoreCase : Bool) (s : CharSet) : CharSet := if ignoreCase then .anyCase s else s

/-- A named class, after its opening bracket. -/
def readNamed? (ignoreCase : Bool) : List Char → Option (CharSet × List Char)
  | ':' :: cs =>
    let (negated, cs) := match cs with
      | '^' :: cs => (true, cs)
      | cs => (false, cs)
    let name := cs.takeWhile (· != ':')
    match cs.drop name.length with
    | ':' :: ']' :: rest => (named? name).map fun s ↦
      let s := fold ignoreCase s
      (if negated then .compl s else s, rest)
    | _ => none
  | _ => none

/-- One character or escape of a class. -/
def readItem? : List Char → Option (Escape × List Char)
  | [] => none
  | '\\' :: cs => Escape.read? cs
  | c :: cs => some (.char c, cs)

/-- The set of an item that is not the start of a range. -/
def itemSet? : Escape → Option CharSet
  | .char c => some (.single c)
  | .set s => some s
  | .assertion _ => none

/-- The end of a range, when the text goes on with one: a hyphen that is followed neither by the
closing bracket nor by another hyphen. -/
def rangeEnd? : List Char → Option (List Char)
  | '-' :: ']' :: _ => none
  | '-' :: '-' :: _ => none
  | '-' :: cs => some cs
  | _ => none

/-- An item or a range of items. -/
def readRange? (cs : List Char) : Option (CharSet × List Char) := do
  let (item, cs) ← readItem? cs
  match rangeEnd? cs with
  | none => some (← itemSet? item, cs)
  | some cs =>
    match item, ← readItem? cs with
    | .char first, (.char last, rest) =>
      if first ≤ last then some (.range first last, rest) else none
    | _, _ => none

/-- What has been read of a class: an operator whose left side is complete, and the list since. -/
structure Partial where
  pending : Option (Operator × CharSet)
  items : List CharSet
  /-- How deep this part nests. -/
  depth : Nat

namespace Partial

def push (p : Partial) (s : CharSet) (depth : Nat) : Partial :=
  { p with items := s :: p.items, depth := max p.depth depth }

/-- The depth with the list itself counted, when it is one. -/
def listDepth (p : Partial) : Nat := if 1 < p.items.length then p.depth + 1 else p.depth

/-- The set of all that has been read. -/
def close (ignoreCase : Bool) (p : Partial) : CharSet × Nat :=
  let right := CharSet.unions p.items.reverse
  match p.pending with
  | none => (right, p.listDepth)
  | some (op, left) =>
    (op.apply (fold ignoreCase left) (fold ignoreCase right), p.listDepth + 1)

/-- Start the right side of an operator. -/
def operator (ignoreCase : Bool) (op : Operator) (p : Partial) : Partial :=
  let (left, depth) := p.close ignoreCase
  ⟨some (op, left), [], depth⟩

end Partial

/-- The hyphens at the start of a class. -/
def leadingHyphens (p : Partial) : List Char → Partial × List Char
  | '-' :: cs => leadingHyphens (p.push (.single '-') 0) cs
  | cs => (p, cs)

/-- The start of a class, after its opening bracket: whether it is negated, and the hyphens or the
closing bracket that stand for themselves. -/
def readStart (cs : List Char) : Bool × Partial × List Char :=
  let (negated, cs) := match cs with
    | '^' :: cs => (true, cs)
    | cs => (false, cs)
  let (p, cs) := leadingHyphens ⟨none, [], 0⟩ cs
  match p.items, cs with
  | [], ']' :: cs => (negated, p.push (.single ']') 0, cs)
  | _, _ => (negated, p, cs)

mutual

/-- A class after its opening bracket: its set, its depth, and what follows the closing bracket. -/
def read? (ignoreCase : Bool) : Nat → List Char → Option ((CharSet × Nat) × List Char)
  | 0, _ => none
  | fuel + 1, cs => do
    let (negated, p, cs) := readStart cs
    let ((s, depth), rest) ← readItems? ignoreCase fuel p cs
    let s := fold ignoreCase s
    some ((if negated then .compl s else s, depth + 1), rest)

/-- The items of a class up to its closing bracket. -/
def readItems? (ignoreCase : Bool) : Nat → Partial → List Char →
    Option ((CharSet × Nat) × List Char)
  | 0, _, _ => none
  | _ + 1, _, [] => none
  | fuel + 1, p, '[' :: cs =>
    match readNamed? ignoreCase cs with
    | some (s, rest) => readItems? ignoreCase fuel (p.push s 0) rest
    | none => do
      let ((s, depth), rest) ← read? ignoreCase fuel cs
      readItems? ignoreCase fuel (p.push s depth) rest
  | _ + 1, p, ']' :: cs => some (p.close ignoreCase, cs)
  | fuel + 1, p, '&' :: '&' :: cs => readItems? ignoreCase fuel (p.operator ignoreCase .inter) cs
  | fuel + 1, p, '-' :: '-' :: cs => readItems? ignoreCase fuel (p.operator ignoreCase .diff) cs
  | fuel + 1, p, '~' :: '~' :: cs =>
    readItems? ignoreCase fuel (p.operator ignoreCase .symmDiff) cs
  | fuel + 1, p, cs => do
    let (s, rest) ← readRange? cs
    readItems? ignoreCase fuel (p.push s 0) rest

end

end Bracket

end DeviceSnapshot
