import DeviceSnapshot.Pattern.Automaton
import DeviceSnapshot.Pattern.Bracket

/-!
# Reading patterns

A pattern is read from left to right with a stack of open groups. Flags set inside a group hold to
its end, also in later alternatives. A repetition applies to the piece before it; a question mark
after it, or a flag, makes it lazy.

Of the syntax of regular expressions, two things are left out. There are no classes by Unicode
property, and of the flags there are neither those for blanks with comments and for carriage returns
as line ends nor a way to turn Unicode off. Texts that need these are refused here and may be
accepted by another reader, which is why tables take theirs as an argument (`PatternReader`).

Two limits keep patterns small. The structure may nest at most `maxNesting` deep, counting groups,
repetitions, classes, concatenations and alternations. And the automata of the expression may not
become too large.
-/

namespace DeviceSnapshot

/-- How deep a pattern may nest. -/
def maxNesting : Nat := 250

/-! ## The state of reading -/

/-- Flags that change what the pieces of a pattern stand for. -/
structure PatternFlags where
  ignoreCase : Bool := false
  dotMatchesNewline : Bool := false
  multiLine : Bool := false
  /-- Repetition is lazy, unless a question mark follows it. -/
  lazyByDefault : Bool := false
  deriving DecidableEq

/-- A piece of a concatenation, with its nesting depth. -/
inductive Piece where
  | expr (e : Expr) (depth : Nat)
  /-- A change of flags, which cannot be repeated. -/
  | flags

/-- An alternative or a whole group, with its nesting depth. -/
structure Branch where
  expr : Expr
  depth : Nat

/-- An open group: what came before it. -/
structure Group where
  /-- The number of a group that captures what it matches. -/
  number : Option Nat
  /-- The flags outside. -/
  flags : PatternFlags
  /-- The complete alternatives, the last one first. -/
  branches : List Branch
  /-- The pieces of the open alternative, the last one first. -/
  pieces : List Piece

/-- What has been read of a pattern. -/
structure PatternState where
  flags : PatternFlags := {}
  branches : List Branch := []
  pieces : List Piece := []
  outer : List Group := []
  /-- How many groups so far capture what they match. -/
  captures : Nat := 0
  /-- The names of groups so far. -/
  names : List String := []

namespace PatternState

def push (st : PatternState) (e : Expr) (depth : Nat) : PatternState :=
  { st with pieces := .expr e depth :: st.pieces }

/-- The concatenation of pieces in order. -/
def concat : List Piece → Expr
  | [] => .empty
  | .flags :: ps => concat ps
  | [.expr e _] => e
  | .expr e _ :: ps => .seq e (concat ps)

/-- The nesting depth of the deepest piece. -/
def deepest : List Piece → Nat
  | [] => 0
  | .flags :: ps => deepest ps
  | .expr _ depth :: ps => max depth (deepest ps)

/-- The open alternative as a branch. -/
def branch (pieces : List Piece) : Branch :=
  ⟨concat pieces.reverse, if 1 < pieces.length then deepest pieces + 1 else deepest pieces⟩

/-- The alternation of branches in order. -/
def alternation : List Branch → Expr
  | [] => .empty
  | [b] => b.expr
  | b :: bs => .alt b.expr (alternation bs)

/-- All alternatives of the innermost group as one expression. -/
def close (branches : List Branch) (pieces : List Piece) : Branch :=
  let all := branch pieces :: branches
  let depth := all.foldl (fun n b ↦ max n b.depth) 0
  ⟨alternation all.reverse, if 1 < all.length then depth + 1 else depth⟩

def nextBranch (st : PatternState) : PatternState :=
  { st with branches := branch st.pieces :: st.branches, pieces := [] }

/-- Open a group that does not capture. -/
def openGroup (st : PatternState) (flags : PatternFlags) : PatternState :=
  { st with
    flags, branches := [], pieces := []
    outer := ⟨none, st.flags, st.branches, st.pieces⟩ :: st.outer }

/-- Open a group that captures, perhaps under a name, which must be new. -/
def openCapture? (st : PatternState) (name : Option String) : Option PatternState :=
  let number := st.captures + 1
  let names := name.toList
  if names.any (· ∈ st.names) then none
  else some
    { flags := st.flags, outer := ⟨some number, st.flags, st.branches, st.pieces⟩ :: st.outer
      captures := number, names := names ++ st.names }

/-- Close the innermost group, if one is open. -/
def closeGroup? (st : PatternState) : Option PatternState :=
  match st.outer with
  | [] => none
  | g :: outer =>
    let inner := close st.branches st.pieces
    some { st with
      flags := g.flags
      branches := g.branches
      pieces := .expr (.group g.number inner.expr) (inner.depth + 1) :: g.pieces
      outer }

/-- Repeat the last piece. A question mark after the repetition changes whether it is lazy; the
result is the state and what follows. -/
def repeat? (st : PatternState) (least : Nat) (most : Option Nat) (rest : List Char) :
    Option (PatternState × List Char) :=
  match st.pieces with
  | .expr e depth :: ps =>
    let (lazy, rest) := match rest with
      | '?' :: rest => (!st.flags.lazyByDefault, rest)
      | rest => (st.flags.lazyByDefault, rest)
    some ({ st with pieces := .expr (.repeat e least most lazy) (depth + 1) :: ps }, rest)
  | _ => none

/-- The whole pattern, when every group is closed and the limits are kept. -/
def finish? (st : PatternState) : Option Expr :=
  let all := close st.branches st.pieces
  if st.outer.isEmpty && all.depth ≤ maxNesting && all.expr.fits then some all.expr
  else none

/-- The set of a character outside of classes. -/
def charSet (st : PatternState) (c : Char) : CharSet :=
  if st.flags.ignoreCase then .anyCase (.single c) else .single c

end PatternState

/-! ## Groups and flags -/

/-- Set one flag. Unicode can only be turned on, which it is. -/
def PatternFlags.set? (flags : PatternFlags) (on : Bool) : Char → Option PatternFlags
  | 'i' => some { flags with ignoreCase := on }
  | 's' => some { flags with dotMatchesNewline := on }
  | 'm' => some { flags with multiLine := on }
  | 'U' => some { flags with lazyByDefault := on }
  | 'u' => if on then some flags else none
  | _ => none

/-- Set flags up to the end of a list of them, where no flag and no minus sign comes twice and the
minus sign is not the last. -/
def PatternFlags.setAll? (flags : PatternFlags) (on : Bool) : List Char → Option PatternFlags
  | [] => some flags
  | '-' :: cs => if on ∧ cs ≠ [] then setAll? flags false cs else none
  | c :: cs => if c ∈ cs then none else (flags.set? on c).bind fun flags ↦ setAll? flags on cs

/-- What the characters after an opening parenthesis make of it. -/
inductive GroupStart where
  /-- A group that captures, perhaps with a name. -/
  | capture (name : Option String)
  /-- A group that does not capture, with the flags inside. -/
  | group (flags : PatternFlags)
  /-- Flags for the rest of the enclosing group. -/
  | flags (flags : PatternFlags)

/-- The name of a group, after its opening angle bracket. -/
def readGroupName? (cs : List Char) : Option (String × List Char) :=
  let name := cs.takeWhile (· != '>')
  let startsName (c : Char) : Bool := c == '_' || isAlphabetic c
  let goesOn (c : Char) : Bool := c ∈ "_.[]".toList || isAlphanumeric c
  match name, cs.drop name.length with
  | first :: others, '>' :: rest =>
    if startsName first && others.all goesOn then some (String.ofList name, rest) else none
  | _, _ => none

/-- Flags after the question mark of a group, up to the colon or the closing parenthesis. -/
def readFlags? (flags : PatternFlags) (cs : List Char) : Option (GroupStart × List Char) :=
  let list := cs.takeWhile fun c ↦ c != ':' && c != ')'
  match cs.drop list.length with
  | ':' :: rest => (flags.setAll? true list).map fun flags ↦ (.group flags, rest)
  | ')' :: rest =>
    if list = [] then none
    else (flags.setAll? true list).map fun flags ↦ (.flags flags, rest)
  | _ => none

/-- The start of a group after its opening parenthesis. Looking around is refused. -/
def readGroupStart? (flags : PatternFlags) : List Char → Option (GroupStart × List Char)
  | '?' :: '<' :: '=' :: _ => none
  | '?' :: '<' :: '!' :: _ => none
  | '?' :: 'P' :: '<' :: cs => (readGroupName? cs).map fun (name, rest) ↦ (.capture name, rest)
  | '?' :: '<' :: cs => (readGroupName? cs).map fun (name, rest) ↦ (.capture name, rest)
  | '?' :: cs => readFlags? flags cs
  | cs => some (.capture none, cs)

/-! ## Counted repetition -/

/-- A count that fits 32 bits, with blanks around it. -/
def readCount? (cs : List Char) : Option (Nat × List Char) :=
  let cs := cs.dropWhile isBlank
  let ds := cs.takeWhile Char.isDigit
  let n := ds.foldl (fun n d ↦ 10 * n + (d.toNat - '0'.toNat)) 0
  if ds = [] ∨ 0x100000000 ≤ n then none else some (n, (cs.drop ds.length).dropWhile isBlank)

/-- The bounds of a repetition after its opening brace. -/
def readBounds? (cs : List Char) : Option ((Nat × Option Nat) × List Char) := do
  let (least, cs) ← readCount? cs
  match cs with
  | '\x7d' :: rest => some ((least, some least), rest)
  | ',' :: '\x7d' :: rest => some ((least, none), rest)
  | ',' :: cs =>
    match ← readCount? cs with
    | (most, '\x7d' :: rest) => if least ≤ most then some ((least, some most), rest) else none
    | _ => none
  | _ => none

/-! ## The whole pattern -/

/-- Read the rest of a pattern; each round consumes at least one character. -/
def readPattern? : Nat → PatternState → List Char → Option Expr
  | _, st, [] => st.finish?
  | 0, _, _ => none
  | fuel + 1, st, c :: cs =>
    match c with
    | '(' =>
      match readGroupStart? st.flags cs with
      | some (.capture name, rest) =>
        (st.openCapture? name).bind fun st ↦ readPattern? fuel st rest
      | some (.group flags, rest) => readPattern? fuel (st.openGroup flags) rest
      | some (.flags flags, rest) =>
        readPattern? fuel { st with flags, pieces := .flags :: st.pieces } rest
      | none => none
    | ')' => st.closeGroup?.bind fun st ↦ readPattern? fuel st cs
    | '|' => readPattern? fuel st.nextBranch cs
    | '[' =>
      (Bracket.read? st.flags.ignoreCase (2 * cs.length + 2) cs).bind fun ((s, depth), rest) ↦
        readPattern? fuel (st.push (.chars s) depth) rest
    | '?' => (st.repeat? 0 (some 1) cs).bind fun (st, rest) ↦ readPattern? fuel st rest
    | '*' => (st.repeat? 0 none cs).bind fun (st, rest) ↦ readPattern? fuel st rest
    | '+' => (st.repeat? 1 none cs).bind fun (st, rest) ↦ readPattern? fuel st rest
    | '\x7b' =>
      (readBounds? cs).bind fun ((least, most), rest) ↦
        (st.repeat? least most rest).bind fun (st, rest) ↦ readPattern? fuel st rest
    | '.' =>
      let s := if st.flags.dotMatchesNewline then CharSet.all else CharSet.notNewline
      readPattern? fuel (st.push (.chars s) 0) cs
    | '^' =>
      let a := if st.flags.multiLine then Assertion.startLine else .startText
      readPattern? fuel (st.push (.assert a) 0) cs
    | '$' =>
      let a := if st.flags.multiLine then Assertion.endLine else .endText
      readPattern? fuel (st.push (.assert a) 0) cs
    | '\\' =>
      (Escape.read? cs).bind fun (escape, rest) ↦
        let e := match escape with
          | .char c => Expr.chars (st.charSet c)
          | .set s => .chars s
          | .assertion a => .assert a
        readPattern? fuel (st.push e 0) rest
    | _ => readPattern? fuel (st.push (.chars (st.charSet c)) 0) cs

namespace Expr

/-- The expression that a pattern writes, or nothing when it is malformed, too large, or outside the
syntax that is read here. -/
def ofText? (text : String) : Option Expr :=
  readPattern? text.length {} text.toList

end Expr

end DeviceSnapshot
