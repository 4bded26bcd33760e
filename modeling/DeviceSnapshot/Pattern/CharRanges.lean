import DeviceSnapshot.Pattern.CharSet

/-!
# The code points of a set of characters

A set of characters is expanded into the ranges of its code points where the expansion itself
matters: the size of an automaton depends on how many ranges there are and where they begin and end.
-/

namespace DeviceSnapshot

/-- The code points of word characters. -/
def wordRanges : CodeRanges :=
  (alphabeticRanges.union decimalDigitRanges).union joiningRanges

/-- The code points of a run, each with the code point that it folds to. -/
def FoldRun.pairs (r : FoldRun) : List (Nat × Nat) :=
  (List.range ((r.last - r.first) / r.stride + 1)).map fun i ↦
    let n := r.first + i * r.stride
    (n, ((n : Int) + r.shift).toNat)

/-- All code points that do not fold to themselves, each with the one that it folds to. -/
def foldPairs : List (Nat × Nat) := foldRuns.flatMap FoldRun.pairs

/-- The code points to which a list folds, as far as folding changes something. -/
def CodeRanges.folded (rs : CodeRanges) : CodeRanges :=
  foldPairs.foldl (fun ss (n, f) ↦
    if rs.contains n || rs.contains f then CodeRanges.insert ss (f, f) else ss) []

/-- The code points that are equal up to case to one in the list. -/
def CodeRanges.anyCase (rs : CodeRanges) : CodeRanges :=
  let folded := rs.folded
  foldPairs.foldl (fun ss (n, f) ↦
    if folded.contains f then CodeRanges.insert (CodeRanges.insert ss (n, n)) (f, f) else ss) rs

namespace CharSet

/-- The code points of the characters in a set. -/
def ranges : CharSet → CodeRanges
  | .range first last => if first ≤ last then [(first.toNat, last.toNat)] else []
  | .digit => decimalDigitRanges
  | .blank => blankRanges
  | .word => wordRanges
  | .union s t => s.ranges.union t.ranges
  | .inter s t => s.ranges.inter t.ranges
  | .compl s => s.ranges.compl
  | .anyCase s => s.ranges.anyCase

/-- An upper bound for the characters that closure under case adds to a set. A character has at most
three others to which it is equal up to case, and digits and blanks have none; fewer than 3000
characters have any. -/
def caseBound : CharSet → Nat
  | .range first last => min 3000 (3 * (last.toNat - first.toNat + 1))
  | .digit | .blank => 0
  | .word | .compl _ => 3000
  | .union s t | .inter s t => s.caseBound + t.caseBound
  | .anyCase s => s.caseBound

/-- An upper bound for the number of ranges, known without expanding the set. -/
def rangeBound : CharSet → Nat
  | .range _ _ => 1
  | .digit => decimalDigitRanges.length
  | .blank => blankRanges.length
  | .word => alphabeticRanges.length + decimalDigitRanges.length + joiningRanges.length
  | .union s t | .inter s t => s.rangeBound + t.rangeBound
  | .compl s => s.rangeBound + 1
  | .anyCase s => s.rangeBound + min 3000 s.caseBound

end CharSet

end DeviceSnapshot
