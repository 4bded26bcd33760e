/-!
# Hexadecimal numbers

The digits of base sixteen in either case, the numbers they write, and the characters that have such
a number as their code point.
-/

namespace DeviceSnapshot

/-- The value of a hexadecimal digit in either case. -/
def hexValue? (c : Char) : Option Nat :=
  if '0' ≤ c ∧ c ≤ '9' then some (c.toNat - '0'.toNat)
  else if 'a' ≤ c ∧ c ≤ 'f' then some (c.toNat - 'a'.toNat + 10)
  else if 'A' ≤ c ∧ c ≤ 'F' then some (c.toNat - 'A'.toNat + 10)
  else none

/-- The number that hexadecimal digits write; there is at least one. -/
def hexNumber? (ds : List Char) : Option Nat :=
  if ds = [] then none
  else ds.foldlM (fun n d ↦ (hexValue? d).map fun v ↦ 16 * n + v) 0

/-- A hexadecimal digit in lower case. -/
def hexDigit (n : Nat) : Char :=
  if n < 10 then Char.ofNat ('0'.toNat + n) else Char.ofNat ('a'.toNat + (n - 10))

/-- The character with a code point, unless that is a surrogate or too large. -/
def codePoint? (n : Nat) : Option Char :=
  if n < 0xD800 ∨ (0xE000 ≤ n ∧ n < 0x110000) then some (Char.ofNat n) else none

end DeviceSnapshot
