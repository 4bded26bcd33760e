import DeviceSnapshot.Pattern.CharRanges
import DeviceSnapshot.Pattern.Expr

/-!
# Short forms of expressions

Before an automaton is built, an expression is brought into a shorter form that matches the same
texts. Neighbouring characters become one literal, alternatives that are single characters become
one class, and what several alternatives begin with is written once before them. What cannot consume
a character is repeated at most once, because a second round of it changes nothing.

Concatenations and alternations are lists here. The functions `concat`, `alternation` and `repeated`
build a form from forms that are short already.
-/

namespace DeviceSnapshot

/-- A short form. -/
inductive Form where
  | empty
  /-- One or more characters in a row. -/
  | literal (cs : List Char)
  /-- One character of a class, which may be empty. -/
  | chars (rs : CodeRanges)
  | assert (a : Assertion)
  /-- A numbered group. -/
  | group (number : Nat) (f : Form)
  | repeat (f : Form) (least : Nat) (most : Option Nat) (lazy : Bool)
  | concat (fs : List Form)
  | alternation (fs : List Form)

namespace Form

mutual

def same : Form → Form → Bool
  | .empty, .empty => true
  | .literal cs, .literal ds => cs == ds
  | .chars rs, .chars ss => rs == ss
  | .assert a, .assert b => a = b
  | .group m f, .group n g => m == n && same f g
  | .repeat f least most lazy, .repeat g least' most' lazy' =>
    least == least' && most == most' && lazy == lazy' && same f g
  | .concat fs, .concat gs => sameAll fs gs
  | .alternation fs, .alternation gs => sameAll fs gs
  | _, _ => false

def sameAll : List Form → List Form → Bool
  | [], [] => true
  | f :: fs, g :: gs => same f g && sameAll fs gs
  | _, _ => false

end

mutual

def size : Form → Nat
  | .group _ f | .repeat f _ _ _ => size f + 1
  | .concat fs | .alternation fs => sizeAll fs + 1
  | _ => 1

def sizeAll : List Form → Nat
  | [] => 0
  | f :: fs => size f + sizeAll fs

end

/-! ## The lengths of matches -/

def total (ns : List Nat) : Nat := ns.foldl (· + ·) 0

/-- The number of bytes of some characters. -/
def byteLength (cs : List Char) : Nat := total (cs.map Char.utf8Size)

mutual

/-- The least number of bytes in a match, when it is known. -/
def minLength? : Form → Option Nat
  | .empty | .assert _ => some 0
  | .literal cs => some (byteLength cs)
  | .chars rs => rs.head?.map fun r ↦ (Char.ofNat r.1).utf8Size
  | .group _ f => minLength? f
  | .repeat f least _ _ => (minLength? f).map (least * ·)
  | .concat fs => (minLengths? fs).map total
  | .alternation fs => (minLengths? fs).bind List.min?

def minLengths? : List Form → Option (List Nat)
  | [] => some []
  | f :: fs => do some ((← minLength? f) :: (← minLengths? fs))

end

mutual

/-- The greatest number of bytes in a match, when there is one and it is known. -/
def maxLength? : Form → Option Nat
  | .empty | .assert _ => some 0
  | .literal cs => some (byteLength cs)
  | .chars rs => rs.getLast?.map fun r ↦ (Char.ofNat r.2).utf8Size
  | .group _ f => maxLength? f
  | .repeat f _ most _ => do some ((← most) * (← maxLength? f))
  | .concat fs => (maxLengths? fs).map total
  | .alternation fs => (maxLengths? fs).bind List.max?

def maxLengths? : List Form → Option (List Nat)
  | [] => some []
  | f :: fs => do some ((← maxLength? f) :: (← maxLengths? fs))

end

/-! ## Assertions at the ends -/

mutual

/-- Whether every match is seen to begin with an assertion, and only after empty stretches. -/
def beginsWith (a : Assertion) : Form → Bool
  | .assert b => a = b
  | .group _ f => beginsWith a f
  | .repeat f least _ _ => 0 < least && beginsWith a f
  | .concat fs => someBeginsWith a fs
  | .alternation fs => allBeginWith a fs
  | _ => false

/-- Whether one of several forms in a row begins with an assertion, and those before it match the
empty text only. -/
def someBeginsWith (a : Assertion) : List Form → Bool
  | [] => false
  | f :: fs => beginsWith a f || (maxLength? f == some 0 && someBeginsWith a fs)

def allBeginWith (a : Assertion) : List Form → Bool
  | [] => true
  | f :: fs => beginsWith a f && allBeginWith a fs

end

mutual

/-- Whether every match is seen to end with an assertion, and only before empty stretches. -/
def endsWith (a : Assertion) : Form → Bool
  | .assert b => a = b
  | .group _ f => endsWith a f
  | .repeat f least _ _ => 0 < least && endsWith a f
  | .concat fs => (someEndsWith a fs).1
  | .alternation fs => allEndWith a fs
  | _ => false

/-- Whether one of several forms in a row ends with an assertion, and those after it match the empty
text only; and whether all of them match the empty text only. -/
def someEndsWith (a : Assertion) : List Form → Bool × Bool
  | [] => (false, true)
  | f :: fs =>
    let (found, allEmpty) := someEndsWith a fs
    (found || (allEmpty && endsWith a f), allEmpty && maxLength? f == some 0)

def allEndWith (a : Assertion) : List Form → Bool
  | [] => true
  | f :: fs => endsWith a f && allEndWith a fs

end

/-! ## Building short forms -/

/-- A class; one with a single character is a literal. -/
def ofRanges : CodeRanges → Form
  | [(first, last)] => if first = last then .literal [Char.ofNat first] else .chars [(first, last)]
  | rs => .chars rs

/-- The pieces that a form adds to a concatenation. -/
def pieces : Form → List Form
  | .empty => []
  | .concat fs => fs
  | f => [f]

/-- Neighbouring literals as one. -/
def joinLiterals : List Form → List Form
  | [] => []
  | .literal cs :: fs =>
    match joinLiterals fs with
    | .literal ds :: gs => .literal (cs ++ ds) :: gs
    | gs => .literal cs :: gs
  | f :: fs => f :: joinLiterals fs

def ofConcat (fs : List Form) : Form :=
  match joinLiterals (fs.flatMap pieces) with
  | [] => .empty
  | [f] => f
  | gs => .concat gs

/-- The alternatives that a form adds to an alternation. -/
def alternatives : Form → List Form
  | .alternation fs => fs
  | f => [f]

/-- The code point of a literal of one character. -/
def singleCode? : Form → Option Nat
  | .literal [c] => some c.toNat
  | _ => none

/-- The ranges of a class. -/
def ranges? : Form → Option CodeRanges
  | .chars rs => some rs
  | _ => none

/-- How many forms two lists have in common at the front. -/
def commonLength : List Form → List Form → Nat
  | f :: fs, g :: gs => if same f g then commonLength fs gs + 1 else 0
  | _, _ => 0

/-- What several concatenations have in common at the front, and what remains of each. -/
def commonFront? (fs : List Form) : Option (List Form × List (List Form)) := do
  let lists ← fs.mapM fun
    | .concat gs => some gs
    | _ => none
  let first ← lists.head?
  let count := lists.foldl (fun n gs ↦ min n (commonLength first gs)) first.length
  if count = 0 then none else some (first.take count, lists.map (List.drop count))

/-- An alternation, in which a common front is taken out at most so many times. -/
def alternate : Nat → List Form → Form
  | fuel, fs =>
    let fs := fs.flatMap alternatives
    match fs with
    | [] => .chars []
    | [f] => f
    | _ =>
      match fs.mapM singleCode? with
      | some codes => ofRanges (codes.foldl (fun rs n ↦ CodeRanges.insert rs (n, n)) [])
      | none =>
        match fs.mapM ranges? with
        | some rss => ofRanges (rss.foldl CodeRanges.union [])
        | none =>
          match fuel, commonFront? fs with
          | fuel + 1, some (front, rests) =>
            ofConcat (front ++ [alternate fuel (rests.map ofConcat)])
          | _, _ => .alternation fs

/-- An alternation. Taking out a common front makes the first alternative smaller. -/
def ofAlternation (fs : List Form) : Form := alternate (sizeAll fs) fs

def ofRepeat (f : Form) (least : Nat) (most : Option Nat) (lazy : Bool) : Form :=
  let (least, most) :=
    if maxLength? f = some 0 then (min least 1, some ((most.map (min · 1)).getD 1))
    else (least, most)
  if least = 0 ∧ most = some 0 then .empty
  else if least = 1 ∧ most = some 1 then f
  else .repeat f least most lazy

end Form

namespace Expr

/-- The short forms of the alternatives of an expression. -/
def shortAlternatives : Expr → List Form
  | .empty => [.empty]
  | .chars s => [Form.ofRanges s.ranges]
  | .assert a => [.assert a]
  | .seq e f =>
    [Form.ofConcat [Form.ofAlternation (shortAlternatives e),
      Form.ofAlternation (shortAlternatives f)]]
  | .alt e f => shortAlternatives e ++ shortAlternatives f
  | .group none e => [Form.ofAlternation (shortAlternatives e)]
  | .group (some number) e => [.group number (Form.ofAlternation (shortAlternatives e))]
  | .repeat e least most lazy =>
    [Form.ofRepeat (Form.ofAlternation (shortAlternatives e)) least most lazy]

/-- The short form of an expression. -/
def short (e : Expr) : Form := Form.ofAlternation (shortAlternatives e)

end Expr

end DeviceSnapshot
