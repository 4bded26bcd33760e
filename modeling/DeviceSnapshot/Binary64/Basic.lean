/-!
# Finite binary floating-point numbers

A finite number in the 64-bit binary format is a sign and a place on the grid of magnitudes. The
grid is indexed by a natural number: index `0` is zero, and a larger index is a larger magnitude.
Below `2 ^ 52` the grid steps by `2 ^ (-1074)`; from there on each block of `2 ^ 52` indices steps
twice as wide as the block before it. This is the bit pattern of the format without its sign, so
every finite number has exactly one index, and rounding up from the last index of a block lands on
the first index of the next one with no case distinction.

Everything is exact arithmetic on natural numbers. A result is rounded once, to the nearest grid
point, and to the even index when two are equally near; a result past the last finite index is
reported as `none`.
-/

namespace DeviceSnapshot

/-- The number of indices in a block of the grid, `2 ^ 52`. -/
abbrev gridBlock : Nat := 0x10000000000000

/-- A finite 64-bit binary floating-point number. -/
structure Binary64 where
  /-- Whether the sign is set. Zero has both signs. -/
  negative : Bool
  /-- The place of the magnitude on the grid. -/
  index : Nat
  /-- The place is before the one that stands for infinity. -/
  finite : index < 0x7FF * gridBlock
  deriving DecidableEq

namespace Binary64

/-! ## The grid -/

/-- The magnitude at an index is `significand * 2 ^ exponent`. -/
def significand (index : Nat) : Nat :=
  if index < gridBlock then index else index % gridBlock + gridBlock

/-- The power of two by which the grid steps at an index. -/
def exponent (index : Nat) : Int :=
  if index < gridBlock then -1074 else (index / gridBlock : Nat) - 1075

/-- A quotient rounded to the nearest natural number, a half going to the even neighbour. -/
def roundDiv (num den : Nat) : Nat :=
  let quotient := num / den
  let twice := 2 * (num % den)
  if twice < den then quotient
  else if den < twice then quotient + 1
  else quotient + quotient % 2

/-- The exponent of the step that the grid takes around `num / den`. -/
def stepExponent (num den : Nat) : Int :=
  let guess : Int := (num.log2 : Int) - den.log2
  let reaches : Bool :=
    if guess ≥ 0 then decide (den <<< guess.toNat ≤ num)
    else decide (den ≤ num <<< (-guess).toNat)
  max ((if reaches then guess else guess - 1) - 52) (-1074)

/-- The grid index nearest to `num / den`, which may lie past the last finite one. -/
def nearestIndex (num den : Nat) : Nat :=
  if num = 0 then 0
  else
    let step := stepExponent num den
    let ticks :=
      if step ≥ 0 then roundDiv num (den <<< step.toNat)
      else roundDiv (num <<< (-step).toNat) den
    (step + 1074).toNat * gridBlock + ticks

/-- The finite number with a given sign that is nearest to `num / den`. -/
def ofRatio? (negative : Bool) (num den : Nat) : Option Binary64 :=
  let index := nearestIndex num den
  if h : index < 0x7FF * gridBlock then some ⟨negative, index, h⟩ else none

/-! ## Arithmetic on magnitudes -/

def zero : Binary64 := ⟨false, 0, by decide⟩

def isZero (x : Binary64) : Bool := x.index == 0

def withSign (negative : Bool) (x : Binary64) : Binary64 := { x with negative }

/-- The magnitude as an exact quotient of natural numbers. -/
def ratio (x : Binary64) : Nat × Nat :=
  let e := exponent x.index
  if e ≥ 0 then (significand x.index <<< e.toNat, 1)
  else (significand x.index, 1 <<< (-e).toNat)

/-- The nearest number to a natural number. -/
def ofNat? (n : Nat) : Option Binary64 := ofRatio? false n 1

/-- The product of two magnitudes, rounded once. -/
def mul? (x y : Binary64) : Option Binary64 :=
  let (a, b) := x.ratio
  let (c, d) := y.ratio
  ofRatio? false (a * c) (b * d)

/-- The quotient of two magnitudes, rounded once. -/
def div? (x y : Binary64) : Option Binary64 :=
  let (a, b) := x.ratio
  let (c, d) := y.ratio
  ofRatio? false (a * d) (b * c)

end Binary64

end DeviceSnapshot
