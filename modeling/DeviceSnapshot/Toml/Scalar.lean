import DeviceSnapshot.Toml.Value
import DeviceSnapshot.Binary64.Basic
import DeviceSnapshot.Hexadecimal

/-!
# TOML scalars without quotes

Numbers, truth values and points in time are written without quotes, as one word of letters, digits
and a few signs. A word is read by trying what it can be. Underscores may stand between two digits.
-/

namespace DeviceSnapshot

namespace Toml

/-! ## Digits -/

/-- Digits with single underscores between them, without the underscores. -/
def digits? (isDigit : Char → Bool) : List Char → Option (List Char)
  | [] => none
  | [c] => if isDigit c then some [c] else none
  | c :: '_' :: cs => if isDigit c then (digits? isDigit cs).map (c :: ·) else none
  | c :: cs => if isDigit c then (digits? isDigit cs).map (c :: ·) else none

/-- The number that digits write in a base of at most sixteen. -/
def numberIn (base : Nat) (ds : List Char) : Nat :=
  ds.foldl (fun n d ↦ base * n + (hexValue? d).getD 0) 0

/-- Decimal digits without a needless zero in front. -/
def wholeDigits? (cs : List Char) : Option (List Char) := do
  let ds ← digits? Char.isDigit cs
  if ds.head? = some '0' ∧ ds.length ≠ 1 then none else some ds

/-- A sign and what follows it. -/
def splitSign : List Char → Bool × List Char
  | '+' :: cs => (false, cs)
  | '-' :: cs => (true, cs)
  | cs => (false, cs)

def signedNumber (negative : Bool) (ds : List Char) : Int :=
  if negative then -(numberIn 10 ds : Int) else numberIn 10 ds

/-! ## Integers -/

/-- An integer in base ten with an optional sign, or in another base with a mark. -/
def integer? : List Char → Option Int
  | '0' :: 'x' :: cs => (digits? (fun c ↦ (hexValue? c).isSome) cs).map (numberIn 16 ·)
  | '0' :: 'o' :: cs => (digits? (fun c ↦ '0' ≤ c ∧ c ≤ '7') cs).map (numberIn 8 ·)
  | '0' :: 'b' :: cs => (digits? (fun c ↦ c == '0' || c == '1') cs).map (numberIn 2 ·)
  | cs =>
    let (negative, cs) := splitSign cs
    (wholeDigits? cs).map (signedNumber negative)

/-! ## Floating-point numbers -/

/-- Whether `coefficient * 10 ^ scale` rounds to a finite floating-point number. The power is only
computed where the digits leave it open. -/
def decimalInRange (coefficient : Nat) (scale : Int) : Bool :=
  let size := (Nat.toDigits 10 coefficient).length + scale
  if coefficient = 0 ∨ size < 300 then true
  else if 320 < size then false
  else
    (Binary64.ofRatio? false (coefficient * Nat.pow 10 scale.toNat)
      (Nat.pow 10 (-scale).toNat)).isSome

/-- The parts before and after the first character that satisfies a test, and that character. -/
def splitAt? (p : Char → Bool) (cs : List Char) : Option (List Char × List Char) :=
  let before := cs.takeWhile (!p ·)
  match cs.drop before.length with
  | [] => none
  | _ :: rest => some (before, rest)

/-- The value of an exponent: digits with an optional sign, zeros in front allowed. -/
def exponent? (cs : List Char) : Option Int :=
  let (negative, cs) := splitSign cs
  (digits? Char.isDigit cs).map (signedNumber negative)

/-- Whether a floating-point number is in range, if the word is one: a whole part, then a fraction,
an exponent or both; or one of the special names. -/
def float? (cs : List Char) : Option Bool := do
  let (_, cs) := splitSign cs
  if cs = "inf".toList ∨ cs = "nan".toList then some true
  else
    let (base, exponent) ←
      match splitAt? (fun c ↦ c == 'e' || c == 'E') cs with
      | some (base, rest) => (exponent? rest).map fun e ↦ (base, some e)
      | none => some (cs, none)
    match splitAt? (· == '.') base with
    | some (whole, fraction) =>
      let whole ← wholeDigits? whole
      let fraction ← digits? Char.isDigit fraction
      some (decimalInRange (numberIn 10 (whole ++ fraction))
        (exponent.getD 0 - fraction.length))
    | none => do
      let e ← exponent
      let whole ← wholeDigits? base
      some (decimalInRange (numberIn 10 whole) e)

/-! ## Points in time -/

/-- A number of exactly so many decimal digits at the front. -/
def fixedDigits? (count : Nat) (cs : List Char) : Option (Nat × List Char) :=
  let ds := cs.take count
  if ds.length = count ∧ ds.all Char.isDigit then some (numberIn 10 ds, cs.drop count) else none

def daysInMonth (year month : Nat) : Nat :=
  if month = 2 then
    if year % 4 = 0 ∧ (year % 100 ≠ 0 ∨ year % 400 = 0) then 29 else 28
  else if month ∈ [4, 6, 9, 11] then 30
  else 31

/-- A date at the front, and what follows it. -/
def readDate? (cs : List Char) : Option (List Char) := do
  let (year, cs) ← fixedDigits? 4 cs
  let '-' :: cs := cs | none
  let (month, cs) ← fixedDigits? 2 cs
  let '-' :: cs := cs | none
  let (day, cs) ← fixedDigits? 2 cs
  if 1 ≤ month ∧ month ≤ 12 ∧ 1 ≤ day ∧ day ≤ daysInMonth year month then some cs else none

/-- The fraction of a second, when there is one. -/
def readSecondFraction? : List Char → Option (List Char)
  | '.' :: cs =>
    if (cs.head?.map Char.isDigit).getD false then some (cs.dropWhile Char.isDigit) else none
  | cs => some cs

/-- A time of day at the front, and what follows it. Seconds may be left out, and may be `60` for a
leap second. -/
def readTime? (cs : List Char) : Option (List Char) := do
  let (hour, cs) ← fixedDigits? 2 cs
  let ':' :: cs := cs | none
  let (minute, cs) ← fixedDigits? 2 cs
  if 23 < hour ∨ 59 < minute then none
  match cs with
  | ':' :: cs =>
    let (second, cs) ← fixedDigits? 2 cs
    if 60 < second then none else readSecondFraction? cs
  | cs => some cs

/-- Whether a text is empty or an offset from universal time. -/
def isOffset (cs : List Char) : Bool :=
  match cs with
  | [] => true
  | ['Z'] | ['z'] => true
  | sign :: cs =>
    (sign == '+' || sign == '-') &&
      match fixedDigits? 2 cs with
      | some (hour, ':' :: cs) =>
        match fixedDigits? 2 cs with
        | some (minute, []) => hour ≤ 23 && minute ≤ 59
        | _ => false
      | _ => false

def isDateTime (cs : List Char) : Bool :=
  match readDate? cs with
  | some [] => true
  | some (c :: cs) =>
    (c == 'T' || c == 't' || c == ' ') && ((readTime? cs).map isOffset).getD false
  | none => readTime? cs == some []

/-! ## Words -/

/-- The characters of words. -/
def isWordPart (c : Char) : Bool := c.isAlphanum || c ∈ "_+-.:".toList

/-- The word at the front of a text. A date may be followed by one space and a time of day. -/
def readWord (cs : List Char) : List Char × List Char :=
  let word := cs.takeWhile isWordPart
  let rest := cs.drop word.length
  match readDate? word, rest with
  | some [], ' ' :: c :: _ =>
    if c.isDigit then
      let time := (rest.drop 1).takeWhile isWordPart
      (word ++ ' ' :: time, rest.drop (1 + time.length))
    else (word, rest)
  | _, _ => (word, rest)

def ofWord? (word : List Char) : Option Toml :=
  if word = "true".toList then some (.boolean true)
  else if word = "false".toList then some (.boolean false)
  else
    match integer? word with
    | some n => some (.integer n)
    | none =>
      match float? word with
      | some inRange => some (.float inRange)
      | none => if isDateTime word then some .dateTime else none

end Toml

end DeviceSnapshot
