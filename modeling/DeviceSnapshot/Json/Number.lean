import DeviceSnapshot.Binary64.Shortest
import DeviceSnapshot.Json.Basic

/-!
# Number literals

A literal is a sign, a whole part without needless leading zeros, and optionally a fraction and an
exponent. A literal with neither is an integer when it fits a 64-bit word, and stays one; minus zero
does not count as an integer. Every other literal stands for a floating-point number.

That number is found in two roundings. The digits are gathered into an unsigned 64-bit significand
as long as they fit, and what does not fit only moves the decimal exponent. The significand is
rounded to a floating-point number and then multiplied by, or divided by, the power of ten rounded
to a floating-point number. So the result need not be the nearest number to the literal, and a
program that reads the same digits in the same way gets the same bits.
-/

namespace DeviceSnapshot

/-- A number literal, cut into its parts. -/
structure NumberLiteral where
  negative : Bool
  /-- The digits before the point. -/
  whole : List Char
  /-- The digits after the point, when there is one. -/
  fraction : Option (List Char)
  /-- The sign and the digits of the exponent, when there is one. -/
  exponent : Option (Bool × List Char)
  deriving DecidableEq

namespace NumberLiteral

/-! ## Cutting a literal off the front of a text -/

/-- The digits at the front, and what follows them. -/
def spanDigits (cs : List Char) : List Char × List Char :=
  (cs.takeWhile Char.isDigit, cs.dropWhile Char.isDigit)

/-- A fraction, when the text goes on with a point. -/
def readFraction? : List Char → Option (Option (List Char) × List Char)
  | '.' :: cs =>
    match spanDigits cs with
    | ([], _) => none
    | (ds, rest) => some (some ds, rest)
  | cs => some (none, cs)

/-- The sign of an exponent and what follows it. -/
def readSign : List Char → Bool × List Char
  | '+' :: cs => (false, cs)
  | '-' :: cs => (true, cs)
  | cs => (false, cs)

/-- The digits of an exponent, after its mark. -/
def readExponentDigits? (cs : List Char) : Option (Option (Bool × List Char) × List Char) :=
  let (negative, cs) := readSign cs
  match spanDigits cs with
  | ([], _) => none
  | (ds, rest) => some (some (negative, ds), rest)

/-- An exponent, when the text goes on with its mark. -/
def readExponent? : List Char → Option (Option (Bool × List Char) × List Char)
  | 'e' :: cs => readExponentDigits? cs
  | 'E' :: cs => readExponentDigits? cs
  | cs => some (none, cs)

/-- The literal at the front of a text, after its sign. A whole part of more than one digit does
not start with a zero. -/
def readUnsigned? (negative : Bool) (cs : List Char) : Option (NumberLiteral × List Char) := do
  let (whole, cs) := spanDigits cs
  if whole = [] ∨ (whole.head? = some '0' ∧ whole.length ≠ 1) then none
  let (fraction, cs) ← readFraction? cs
  let (exponent, cs) ← readExponent? cs
  some (⟨negative, whole, fraction, exponent⟩, cs)

/-- The literal at the front of a text, and what follows it. -/
def read? : List Char → Option (NumberLiteral × List Char)
  | '-' :: cs => readUnsigned? true cs
  | cs => readUnsigned? false cs

/-! ## The value of a literal -/

def digitValue (c : Char) : Nat := c.toNat - '0'.toNat

/-- The natural number that digits write. -/
def natOf (ds : List Char) : Nat := ds.foldl (fun n c ↦ 10 * n + digitValue c) 0

/-- The significand with the leading digits appended that fit a 64-bit word, and the digits from
the first one on that does not fit. -/
def gather : Nat → List Char → Nat × List Char
  | significand, [] => (significand, [])
  | significand, d :: ds =>
    let next := 10 * significand + digitValue d
    if next < 0x10000000000000000 then gather next ds else (significand, d :: ds)

/-- The significand of a literal and the power of ten that goes with it, save for the written
exponent. -/
def significand (n : NumberLiteral) : Nat × Int :=
  let (whole, left) := gather 0 n.whole
  let fraction := n.fraction.getD []
  let (all, unused) := gather whole fraction
  (all, (left.length : Int) - ((fraction.length - unused.length : Nat) : Int))

/-- A power of ten as a floating-point number. -/
def powerOfTen? (n : Nat) : Option Binary64 := Binary64.ofNat? (Nat.pow 10 n)

/-- A magnitude divided by `10 ^ n`, in steps of at most `10 ^ 308`. -/
def divPowerOfTen? (x : Binary64) (n : Nat) : Option Binary64 :=
  if n ≤ 308 then do x.div? (← powerOfTen? n)
  else if x.isZero then some x
  else do divPowerOfTen? (← x.div? (← powerOfTen? 308)) (n - 308)
termination_by n

/-- A magnitude times `10 ^ e`, or nothing when that is too large. -/
def scale? (x : Binary64) (e : Int) : Option Binary64 :=
  if e < 0 then divPowerOfTen? x (-e).toNat
  else if e ≤ 308 then do x.mul? (← powerOfTen? e.toNat)
  else if x.isZero then some x
  else none

/-- The greatest exponent that is taken at its word. -/
def maxExponent : Nat := 0x7FFFFFFF

/-- The floating-point number that a literal stands for, or nothing when it is too large. -/
def float? (n : NumberLiteral) : Option Binary64 := do
  let (digits, shift) := n.significand
  let (down, written) := n.exponent.getD (false, [])
  let e := natOf written
  if maxExponent < e then
    if digits = 0 ∨ down then some (Binary64.zero.withSign n.negative) else none
  else
    let x ← scale? (← Binary64.ofNat? digits) (shift + if down then -(e : Int) else e)
    some (x.withSign n.negative)

/-- The integer that a literal stands for: it has neither fraction nor exponent, is not minus zero,
and fits. -/
def int? (n : NumberLiteral) : Option WordInt :=
  if n.fraction.isSome ∨ n.exponent.isSome then none
  else
    match n.negative, natOf n.whole with
    | false, m => WordInt.ofInt? m
    | true, 0 => none
    | true, m + 1 => WordInt.ofInt? (-(m + 1 : Nat))

/-- The value of a literal, or nothing when no finite number is near it. -/
def value? (n : NumberLiteral) : Option Json :=
  match n.int? with
  | some i => some (.int i)
  | none => n.float?.map .float

end NumberLiteral

/-! ## Writing numbers -/

def WordInt.text (n : WordInt) : List Char :=
  if n.val < 0 then '-' :: Decimal.digits n.val.natAbs else Decimal.digits n.val.natAbs

/-- The text of a positive decimal. With the point after the first digit, exponents from `-5` to
`15` are written out in positional notation with at least one digit after the point; all others are
marked `e` and carry a sign. -/
def Decimal.text (d : Decimal) : List Char :=
  let all := Decimal.digits d.coefficient
  let ds := (all.reverse.dropWhile (· == '0')).reverse
  let e : Int := d.scale + all.length - 1
  if 0 ≤ e ∧ e < 16 then
    let places := e.toNat + 1
    let rest := ds.drop places
    ds.take places ++ List.replicate (places - ds.length) '0' ++ ['.'] ++
      (if rest = [] then ['0'] else rest)
  else if -5 ≤ e ∧ e < 0 then
    ['0', '.'] ++ List.replicate ((-e).toNat - 1) '0' ++ ds
  else
    let mantissa := if ds.length ≤ 1 then ds else ds.take 1 ++ ['.'] ++ ds.drop 1
    mantissa ++ ['e', if e < 0 then '-' else '+'] ++ Decimal.digits e.natAbs

/-- The text of a floating-point number: the shortest digits that read back. -/
def Binary64.text (x : Binary64) : List Char :=
  let magnitude := if x.isZero then ['0', '.', '0'] else x.shortest.text
  if x.negative then '-' :: magnitude else magnitude

end DeviceSnapshot
