import DeviceSnapshot.Binary64.Basic

/-!
# The shortest decimal of a floating-point number

Many decimals round to the same floating-point number: those between the two points half way to
its neighbours on the grid. Among them this module picks one with the fewest digits, and of those
the one nearest to the number itself.

For each digit count from one upwards there is one decimal grid on which the number has that many
digits, and only the two grid points around the number can be the nearest ones. The first count at
which one of the two lies in the interval decides. Seventeen digits always suffice.
-/

namespace DeviceSnapshot

/-- The decimal `coefficient * 10 ^ scale`. -/
structure Decimal where
  coefficient : Nat
  scale : Int
  deriving DecidableEq

namespace Decimal

def digits (n : Nat) : List Char := Nat.toDigits 10 n

/-- The largest `e` with `10 ^ e ≤ num / den`, for positive `num` and `den`. -/
def magnitude (num den : Nat) : Int :=
  let guess : Int := ((digits num).length : Int) - (digits den).length
  let reaches : Bool :=
    if guess ≥ 0 then decide (den * Nat.pow 10 guess.toNat ≤ num)
    else decide (den ≤ num * Nat.pow 10 (-guess).toNat)
  if reaches then guess else guess - 1

end Decimal

namespace Binary64

/-! ## The interval that rounds to a number

Its ends are counted in quarters of the grid step. -/

/-- The lower end. The step below the first index of a block is half as wide, save for the block
that follows the one of zero. -/
def lowerQuarters (index : Nat) : Nat :=
  if index % gridBlock = 0 ∧ 2 ≤ index / gridBlock then 4 * significand index - 1
  else 4 * significand index - 2

/-- The upper end. -/
def upperQuarters (index : Nat) : Nat := 4 * significand index + 2

/-- Whether `coefficient * 10 ^ scale` rounds to the number at the index. The ends themselves do
when the index is even. -/
def roundsTo (index coefficient : Nat) (scale : Int) : Bool :=
  let quarter := exponent index - 2
  let point := (coefficient * Nat.pow 10 scale.toNat) <<< (-quarter).toNat
  let lower := (lowerQuarters index * Nat.pow 10 (-scale).toNat) <<< quarter.toNat
  let upper := (upperQuarters index * Nat.pow 10 (-scale).toNat) <<< quarter.toNat
  if index % 2 = 0 then decide (lower ≤ point) && decide (point ≤ upper)
  else decide (lower < point) && decide (point < upper)

/-- The decimal with `count` digits that rounds to the number at the index, if there is one. Of two
the nearer is taken, and of two equally near the even one. -/
def withDigits? (index : Nat) (size : Int) (count : Nat) : Option Decimal :=
  let scale := size - count + 1
  let e := exponent index
  let num := (significand index * Nat.pow 10 (-scale).toNat) <<< e.toNat
  let den := Nat.pow 10 scale.toNat <<< (-e).toNat
  let below := num / den
  let twice := 2 * (num % den)
  let preferBelow := twice < den ∨ (twice = den ∧ below % 2 = 0)
  let near := if preferBelow then below else below + 1
  let far := if preferBelow then below + 1 else below
  if roundsTo index near scale then some ⟨near, scale⟩
  else if roundsTo index far scale then some ⟨far, scale⟩
  else none

/-- The shortest decimal that rounds to a positive magnitude. -/
def shortest (x : Binary64) : Decimal :=
  let (num, den) := x.ratio
  let size := Decimal.magnitude num den
  ((List.range 17).findSome? fun n ↦ withDigits? x.index size (n + 1)).getD ⟨0, 0⟩

end Binary64

end DeviceSnapshot
