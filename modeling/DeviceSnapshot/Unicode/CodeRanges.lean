/-!
# Ranges of code points

A property of characters is given by the code points that have it, as a list of ranges in
increasing order. The search through such a list stops at the first range past the character.

The Boolean operations keep such lists as short as they can be: ranges that touch become one. The
code points of surrogates belong to no character, so no complement starts or ends at one.
-/

namespace DeviceSnapshot

/-- Ranges of code points, both ends included, in increasing order. -/
abbrev CodeRanges := List (Nat × Nat)

namespace CodeRanges

def contains : CodeRanges → Nat → Bool
  | [], _ => false
  | (first, last) :: rs, n => if n < first then false else n ≤ last || contains rs n

/-! ## Boolean operations -/

/-- Add a range. Ranges that touch it or overlap with it become part of it. -/
def insert : CodeRanges → Nat × Nat → CodeRanges
  | [], r => [r]
  | (first, last) :: rs, (a, b) =>
    if b + 1 < first then (a, b) :: (first, last) :: rs
    else if last + 1 < a then (first, last) :: insert rs (a, b)
    else insert rs (min a first, max b last)

def union (rs ss : CodeRanges) : CodeRanges := ss.foldl insert rs

def inter (rs ss : CodeRanges) : CodeRanges :=
  rs.flatMap fun (a, b) ↦ ss.filterMap fun (c, d) ↦
    if max a c ≤ min b d then some (max a c, min b d) else none

/-- The code points from `first` to the one before `stop`, without surrogates at either end. -/
def between (first stop : Nat) : CodeRanges :=
  let first := if 0xD800 ≤ first ∧ first < 0xE000 then 0xE000 else first
  let stop := if 0xD800 < stop ∧ stop ≤ 0xE000 then 0xD800 else stop
  if first < stop then [(first, stop - 1)] else []

/-- The code points from `first` on that are not in the list. -/
def complFrom (first : Nat) : CodeRanges → CodeRanges
  | [] => between first 0x110000
  | (a, b) :: rs => between first a ++ complFrom (b + 1) rs

/-- The code points that are not in the list. -/
def compl (rs : CodeRanges) : CodeRanges := complFrom 0 rs

end CodeRanges

end DeviceSnapshot
