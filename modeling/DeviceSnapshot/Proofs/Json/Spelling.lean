import DeviceSnapshot.Proofs.Json.Scalar

/-!
# Spellings of scalars

A number can be written in many ways, and so can a string: with trailing zeros or an exponent, with
escapes or without. A spelling is one such way, cut into the parts that the grammar of JSON names,
and it carries the proofs that these parts are what the grammar asks for.

Every spelling is read as a whole, with any text behind it that cannot belong to a number
(`Atom.tokens?_text`). What is read is a matter of the spelling alone: the value that it has, or
nothing when it has none. A number may be too large for any value, and a string may hold half of a
surrogate pair.
-/

namespace DeviceSnapshot

namespace Json

namespace Spelling

open NumberLiteral

variable {rest : List Char}

/-! ## Numbers -/

/-- At least one decimal digit. -/
abbrev Digits := {ds : List Char // ds ≠ [] ∧ ∀ c ∈ ds, c.isDigit = true}

/-- The exponent of a number. -/
structure Exponent where
  /-- The mark is a capital letter. -/
  upper : Bool
  /-- The sign, if it is written: a minus or a plus. -/
  minus : Option Bool
  digits : Digits

/-- How a number is written. -/
structure Numeral where
  negative : Bool
  whole : Digits
  /-- A whole part that starts with a zero is zero. -/
  length_whole : whole.val.head? = some '0' → whole.val.length = 1
  fraction : Option Digits
  exponent : Option Exponent

def signText : Option Bool → List Char
  | none => []
  | some false => ['+']
  | some true => ['-']

def Exponent.text (e : Exponent) : List Char :=
  (if e.upper then 'E' else 'e') :: (signText e.minus ++ e.digits.val)

/-- The exponent part of a number, which may be missing. -/
def exponentText : Option Exponent → List Char
  | none => []
  | some e => e.text

/-- The fraction part of a number, which may be missing. -/
def fractionText : Option Digits → List Char
  | none => []
  | some ds => '.' :: ds.val

namespace Numeral

/-- A number as it is written, without its sign. -/
def magnitude (n : Numeral) : List Char :=
  n.whole.val ++ fractionText n.fraction ++ exponentText n.exponent

def text (n : Numeral) : List Char := if n.negative then '-' :: n.magnitude else n.magnitude

/-- The parts of a number that its value depends on. -/
def literal (n : Numeral) : NumberLiteral where
  negative := n.negative
  whole := n.whole.val
  fraction := n.fraction.map Subtype.val
  exponent := n.exponent.map fun e ↦ (e.minus.getD false, e.digits.val)

end Numeral

theorem head?_exponentText (e : Option Exponent) (h : Stops rest) :
    ∀ c ∈ (exponentText e ++ rest).head?, c.isDigit = false ∧ c ≠ '.' := by
  cases e with
  | none => exact fun c hc ↦ ⟨(h c hc).1, (h c hc).2.1⟩
  | some e =>
    intro c hc
    obtain rfl : (if e.upper then 'E' else 'e') = c := Option.some.inj hc
    cases e.upper <;> decide

theorem head?_fractionText (f : Option Digits) (h : ∀ c ∈ rest.head?, c.isDigit = false) :
    ∀ c ∈ (fractionText f ++ rest).head?, c.isDigit = false := by
  cases f with
  | none => exact h
  | some ds =>
    intro c hc
    obtain rfl : '.' = c := Option.some.inj hc
    rfl

theorem readFraction?_text (f : Option Digits)
    (h : ∀ c ∈ rest.head?, c.isDigit = false ∧ c ≠ '.') :
    readFraction? (fractionText f ++ rest) = some (f.map Subtype.val, rest) := by
  cases f with
  | none =>
    rw [fractionText, List.nil_append, readFraction?]
    · rfl
    · rintro cs rfl
      exact (h '.' rfl).2 rfl
  | some ds =>
    have hspan : spanDigits (ds.val ++ rest) = (ds.val, rest) :=
      spanDigits_append_of_head ds.property.2 fun c hc ↦ (h c hc).1
    rw [fractionText, List.cons_append, readFraction?, hspan]
    obtain ⟨d, rest', hds⟩ := List.exists_cons_of_ne_nil ds.property.1
    rw [hds, Option.map_some, hds]

theorem readExponent?_text (e : Option Exponent) (h : Stops rest) :
    readExponent? (exponentText e ++ rest)
      = some (e.map fun e ↦ (e.minus.getD false, e.digits.val), rest) := by
  cases e with
  | none => exact readExponent?_of_stops h
  | some e =>
    obtain ⟨upper, minus, ds⟩ := e
    have hspan : spanDigits (ds.val ++ rest) = (ds.val, rest) := spanDigits_append ds.property.2 h
    obtain ⟨d, ds', hds⟩ := List.exists_cons_of_ne_nil ds.property.1
    have hdigit : d.isDigit = true := ds.property.2 d (hds ▸ List.mem_cons_self)
    have hsign : readSign (signText minus ++ ds.val ++ rest)
        = (minus.getD false, ds.val ++ rest) := by
      cases minus with
      | some m => cases m <;> rfl
      | none =>
        -- The first digit is not taken for a sign.
        rw [signText, List.nil_append, hds, List.cons_append, readSign]
        · rfl
        · rintro cs heq
          rw [(List.cons.inj heq).1] at hdigit
          cases hdigit
        · rintro cs heq
          rw [(List.cons.inj heq).1] at hdigit
          cases hdigit
    have hdigits : readExponentDigits? (signText minus ++ ds.val ++ rest)
        = some (some (minus.getD false, ds.val), rest) := by
      rw [readExponentDigits?, hsign]
      dsimp only
      rw [hspan, hds]
    rw [exponentText, Exponent.text, List.cons_append]
    cases upper <;> exact hdigits

namespace Numeral

variable (n : Numeral)

theorem readUnsigned?_text (negative : Bool) (h : Stops rest) :
    readUnsigned? negative (n.magnitude ++ rest)
      = some (⟨negative, n.literal.whole, n.literal.fraction, n.literal.exponent⟩, rest) := by
  have hexponent := head?_exponentText n.exponent h
  have hspan : spanDigits (n.magnitude ++ rest)
      = (n.whole.val, fractionText n.fraction ++ (exponentText n.exponent ++ rest)) := by
    rw [magnitude, List.append_assoc, List.append_assoc]
    exact spanDigits_append_of_head n.whole.property.2
      (head?_fractionText n.fraction fun c hc ↦ (hexponent c hc).1)
  have hwhole : ¬(n.whole.val = [] ∨ n.whole.val.head? = some '0' ∧ n.whole.val.length ≠ 1) := by
    rintro (hnil | ⟨hzero, hlength⟩)
    · exact n.whole.property.1 hnil
    · exact hlength (n.length_whole hzero)
  rw [readUnsigned?, hspan]
  simp [hwhole, readFraction?_text n.fraction hexponent, readExponent?_text n.exponent h, literal]

theorem exists_text_eq_cons : ∃ c cs, n.text = c :: cs ∧ (c.isDigit = true ∨ c = '-') := by
  obtain ⟨d, ds, hds⟩ := List.exists_cons_of_ne_nil n.whole.property.1
  have hdigit : d.isDigit = true := n.whole.property.2 d (hds ▸ List.mem_cons_self)
  rw [text]
  split
  · exact ⟨_, _, rfl, .inr rfl⟩
  · rw [magnitude, hds]
    exact ⟨_, _, rfl, .inl hdigit⟩

/-- **A number is read as its parts.** -/
theorem read?_text (h : Stops rest) : read? (n.text ++ rest) = some (n.literal, rest) := by
  rw [text]
  cases hsign : n.negative with
  | true =>
    rw [if_pos rfl, List.cons_append, read?, n.readUnsigned?_text true h, literal, hsign]
  | false =>
    have hunsigned := n.readUnsigned?_text false h
    obtain ⟨d, ds, hds⟩ := List.exists_cons_of_ne_nil n.whole.property.1
    have hdigit : d.isDigit = true := n.whole.property.2 d (hds ▸ List.mem_cons_self)
    have hcons : n.magnitude ++ rest
        = d :: (ds ++ fractionText n.fraction ++ exponentText n.exponent ++ rest) := by
      rw [magnitude, hds, List.cons_append, List.cons_append, List.cons_append]
    rw [if_neg Bool.false_ne_true]
    rw [hcons] at hunsigned ⊢
    rw [read?, hunsigned, literal, hsign]
    -- The first digit is not taken for a minus.
    rintro cs heq
    rw [(List.cons.inj heq).1] at hdigit
    cases hdigit

end Numeral

/-! ## Strings -/

/-- A character of a string, or half of one, as it is written. -/
inductive Piece where
  /-- The character itself. -/
  | plain (c : Char) (h : c ≠ '"' ∧ c ≠ '\\' ∧ ¬c < ' ')
  /-- An escape of one letter. -/
  | short (c : Char) (h : c ∈ ['"', '\\', '/', 'b', 'f', 'n', 'r', 't'])
  /-- A UTF-16 unit by its four hexadecimal digits. -/
  | unit (a b c d : Char) (h : [a, b, c, d].all fun x ↦ (hexValue? x).isSome)

def Piece.text : Piece → List Char
  | .plain c _ => [c]
  | .short c _ => ['\\', c]
  | .unit a b c d _ => ['\\', 'u', a, b, c, d]

/-- How a string is written. -/
abbrev Quoted := List Piece

namespace Quoted

def text (q : Quoted) : List Char := '"' :: (q.flatMap Piece.text ++ ['"'])

/-- The characters of pieces. After a high surrogate the low one has to follow. -/
def chars? : Option Nat → List Piece → Option (List Char)
  | none, [] => some []
  | some _, [] => none
  | none, .plain c _ :: ps => (chars? none ps).map (c :: ·)
  | none, .short c _ :: ps => (Token.shortEscape? c).bind fun x ↦ (chars? none ps).map (x :: ·)
  | none, .unit a b c d _ :: ps => (Token.unit? a b c d).bind fun u ↦
    if 0xD800 ≤ u ∧ u < 0xDC00 then chars? (some u) ps
    else (codePoint? u).bind fun x ↦ (chars? none ps).map (x :: ·)
  | some high, .unit a b c d _ :: ps => (Token.unit? a b c d).bind fun u ↦
    (Token.pairChar? high u).bind fun x ↦ (chars? none ps).map (x :: ·)
  | some _, .plain .. :: _ => none
  | some _, .short .. :: _ => none

def value? (q : Quoted) : Option String := (chars? none q).map String.ofList

end Quoted

section Reading

open Token

variable (read : List Char) (high : Option Nat) (cs : List Char)

theorem readString?_cons_plain {c : Char} (hc : c ≠ '"' ∧ c ≠ '\\' ∧ ¬c < ' ') :
    readString? read high (c :: cs)
      = if high.isSome then none else readString? (c :: read) none cs := by
  cases high with
  | none => exact readString?_plain hc.1 hc.2.1 hc.2.2 read cs
  | some u =>
    unfold readString?
    split
    · next heq => exact absurd (List.cons.inj heq).1 hc.2.1
    · next heq => exact absurd (List.cons.inj heq).1 hc.2.1
    · next heq => exact absurd (List.cons.inj heq).1 hc.1
    · rfl
    · rfl

theorem readString?_cons_short {c : Char} (hc : c ≠ 'u') :
    readString? read high ('\\' :: c :: cs)
      = if high.isSome then none
        else (shortEscape? c).bind fun x ↦ readString? (x :: read) none cs := by
  rw [readString?]
  rintro a b c d cs rfl
  exact absurd rfl hc

theorem readString?_cons_unit (a b c d : Char) :
    readString? read high ('\\' :: 'u' :: a :: b :: c :: d :: cs)
      = (unit? a b c d).bind fun u ↦ match high with
        | some h => (pairChar? h u).bind fun x ↦ readString? (x :: read) none cs
        | none =>
          if 0xD800 ≤ u ∧ u < 0xDC00 then readString? read (some u) cs
          else (codePoint? u).bind fun x ↦ readString? (x :: read) none cs := by
  conv_lhs => unfold readString?
  cases hu : unit? a b c d <;> cases high <;> simp [hu]

end Reading

open Token in
/-- **The pieces of a string are read as its characters.** -/
theorem readString?_text (ps : List Piece) (read : List Char) (high : Option Nat)
    (rest : List Char) : readString? read high (ps.flatMap Piece.text ++ '"' :: rest)
      = (Quoted.chars? high ps).map fun cs ↦ (read.reverse ++ cs, rest) := by
  induction ps generalizing read high with
  | nil => cases high <;> simp [readString?, Quoted.chars?]
  | cons p ps ih =>
    -- A character that comes first is read before the others, so it is put behind those read.
    have hcons : ∀ x : Option Char, (x.bind fun x ↦
        readString? (x :: read) none (ps.flatMap Piece.text ++ '"' :: rest))
        = (x.bind fun x ↦ (Quoted.chars? none ps).map (x :: ·)).map
          fun cs ↦ (read.reverse ++ cs, rest) := by
      intro x
      cases x with
      | none => rfl
      | some x => simp [ih, Function.comp_def]
    rw [List.flatMap_cons, List.append_assoc]
    cases p with
    | plain c hc =>
      rw [Piece.text, List.singleton_append, readString?_cons_plain read high _ hc]
      cases high with
      | none => exact hcons (some c)
      | some u => rfl
    | short c hc =>
      have hu : c ≠ 'u' := by
        rintro rfl
        revert hc
        decide
      rw [Piece.text, List.cons_append, List.singleton_append,
        readString?_cons_short read high _ hu]
      cases high with
      | none => exact hcons (shortEscape? c)
      | some u => rfl
    | unit a b c d hd =>
      rw [Piece.text]
      simp only [List.cons_append, List.nil_append]
      rw [readString?_cons_unit]
      cases hu : unit? a b c d with
      | none => cases high <;> simp [Quoted.chars?, hu]
      | some u =>
        cases high with
        | some h => simpa [Quoted.chars?, hu] using hcons (pairChar? h u)
        | none =>
          rw [Option.bind_some, Quoted.chars?, hu, Option.bind_some]
          dsimp only
          split
          · exact ih read (some u)
          · exact hcons (codePoint? u)

/-! ## Scalars -/

/-- How a scalar is written. -/
inductive Atom where
  | null
  | bool (b : Bool)
  | number (n : Numeral)
  | string (q : Quoted)

namespace Atom

def text : Atom → List Char
  | .null => ['n', 'u', 'l', 'l']
  | .bool true => ['t', 'r', 'u', 'e']
  | .bool false => ['f', 'a', 'l', 's', 'e']
  | .number n => n.text
  | .string q => q.text

def value? : Atom → Option Json
  | .null => some .null
  | .bool b => some (.bool b)
  | .number n => n.literal.value?
  | .string q => q.value?.map .str

def token? : Atom → Option Token
  | .null => some (.scalar .null)
  | .bool b => some (.scalar (.bool b))
  | .number n => n.literal.value?.map .scalar
  | .string q => q.value?.map .string

end Atom

open Token in
theorem Quoted.tokens?_text (q : Quoted) (rest : List Char) :
    tokens? (q.text ++ rest) = q.value?.bind fun s ↦ (tokens? rest).map (string s :: ·) := by
  have hread := readString?_text q [] none rest
  rw [Quoted.text, List.cons_append, List.append_assoc, List.singleton_append,
    tokens?_of_not_isBlank rfl, next?, hread, Quoted.value?]
  cases Quoted.chars? none q <;> rfl

open Token in
/-- **A spelled scalar is read as a whole,** as a token or as nothing. -/
theorem Atom.tokens?_text (a : Atom) (h : Stops rest) :
    tokens? (a.text ++ rest) = a.token?.bind fun t ↦ (tokens? rest).map (t :: ·) := by
  cases a with
  | null => exact tokens?_next rfl rfl
  | bool b => cases b <;> exact tokens?_next rfl rfl
  | number n =>
    obtain ⟨c, cs, hcs, hc⟩ := n.exists_text_eq_cons
    have hread := n.read?_text h
    rw [hcs, List.cons_append] at hread
    rw [text, hcs, List.cons_append, tokens?_of_not_isBlank (not_isBlank_of_isDigit hc),
      next?_number hc, hread, token?, Option.bind_some]
    dsimp only
    cases n.literal.value? <;> rfl
  | string q =>
    rw [text, q.tokens?_text, token?]
    cases q.value? <;> rfl

end Spelling

end Json

end DeviceSnapshot
