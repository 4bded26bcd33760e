import DeviceSnapshot.Pattern.Form
import DeviceSnapshot.Unicode.ByteRanges

/-!
# Patterns that match a few literals only

A pattern without assertions and capturing groups may match only a few literals, as in `on|off`.
Such a pattern is searched for by comparison with each of them, so that no automaton is built and no
limit applies to one. This makes a difference only for patterns with a part that can never match,
because all other parts of a pattern with few matches are small themselves.
-/

namespace DeviceSnapshot

namespace Form

mutual

/-- Whether a form is free of assertions and capturing groups. -/
def isPlain : Form → Bool
  | .assert _ | .group _ _ => false
  | .repeat f _ _ _ => isPlain f
  | .concat fs | .alternation fs => arePlain fs
  | _ => true

def arePlain : List Form → Bool
  | [] => true
  | f :: fs => isPlain f && arePlain fs

end

/-- A list of literals, unless it is too long or one of them is. -/
def limited? (ls : List (List Char)) : Option (List (List Char)) :=
  if ls.length ≤ 250 && ls.all (byteLength · ≤ 100) then some ls else none

/-- All literals of one list, each continued by all of another. -/
def cross? (ls ms : List (List Char)) : Option (List (List Char)) :=
  limited? (ls.flatMap fun l ↦ ms.map (l ++ ·))

/-- All sequences of so many literals of a list. -/
def power? (ls : List (List Char)) : Nat → Option (List (List Char))
  | 0 => some [[]]
  | n + 1 => do cross? (← power? ls n) ls

mutual

/-- The literals that a form matches, when they are seen to be few. A class counts with at most ten
characters and a repetition with at most ten rounds, unless nothing can be repeated. -/
def literals? : Form → Option (List (List Char))
  | .empty => some [[]]
  | .literal cs => limited? [cs]
  | .chars rs =>
    if total (rs.map fun r ↦ r.2 + 1 - r.1) ≤ 10 then
      some (rs.flatMap fun r ↦ (List.range (r.2 + 1 - r.1)).map fun i ↦ [Char.ofNat (r.1 + i)])
    else none
  | .assert _ | .group _ _ => none
  | .repeat f least most _ => do
    let ls ← literals? f
    if least = 0 then
      if most = some 1 ∨ ls = [] then limited? ([] :: ls) else none
    else if ls = [] then some []
    else if most = some least ∧ least ≤ 10 then power? ls least
    else none
  | .concat fs => literalsInRow? [[]] fs
  | .alternation fs => literalsOfAny? fs

/-- The literals of several forms in a row, after those of the forms before. Where these can never
match, the rest of the row plays no role. -/
def literalsInRow? (before : List (List Char)) : List Form → Option (List (List Char))
  | [] => some before
  | f :: fs =>
    if before = [] then some []
    else do literalsInRow? (← cross? before (← literals? f)) fs

def literalsOfAny? : List Form → Option (List (List Char))
  | [] => some []
  | f :: fs => do limited? ((← literals? f) ++ (← literalsOfAny? fs))

end

/-- The first byte of a literal. -/
def firstByte? (l : List Char) : Option Nat := l.head?.bind fun c ↦ (ByteRange.bytes c.toNat).head?

/-- Whether a form matches exactly one literal, or up to ten that do not all have the same first
byte; the empty text is none of them. -/
def matchesFewLiterals (f : Form) : Bool :=
  isPlain f &&
    match literals? f with
    | none | some [] => false
    | some (l :: ls) =>
      l ≠ [] && ls.length < 10 && ls.all (· ≠ []) &&
        (ls = [] || ls.any fun m ↦ firstByte? m ≠ firstByte? l)

end Form

end DeviceSnapshot
