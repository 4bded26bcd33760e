import DeviceSnapshot.Json.Token
import DeviceSnapshot.Json.Write
import Mathlib.Tactic.Common

/-!
# Integers and strings read back

The text of an integer and the text of a string, each followed by more text, are read as one token
that stands for the integer or the string, and reading goes on behind it.

For a string this holds whatever follows, since its end is marked. An integer ends where its digits
end, so what follows must not go on with a digit, or with a point or a mark that would make a
fraction or an exponent of it (`NumberLiteral.Stops`).
-/

namespace DeviceSnapshot

/-! ## Digits -/

namespace Decimal

theorem isDigit_of_mem_digits {n : Nat} {c : Char} (h : c ∈ digits n) : c.isDigit = true :=
  Nat.isDigit_of_mem_toDigits (by decide) (by decide) h

theorem digits_ne_nil (n : Nat) : digits n ≠ [] := Nat.toDigits_ne_nil

theorem natOf_digits (n : Nat) : NumberLiteral.natOf (digits n) = n :=
  Nat.ofDigitChars_ten_toDigits

theorem head?_digits_ne {n : Nat} (hn : n ≠ 0) : (digits n).head? ≠ some '0' := by
  -- The first digit of a long number is that of its tenth.
  induction n using Nat.strongRecOn with
  | ind n ih =>
    rcases Nat.lt_or_ge n 10 with hlt | hge
    · have hdigit : ∀ m < 10, m ≠ 0 → some (Nat.digitChar m) ≠ some '0' := by decide
      rw [digits, Nat.toDigits_of_lt_base hlt, List.head?_cons]
      exact hdigit n hlt hn
    · have hdiv : n / 10 ≠ 0 := by omega
      rw [digits, Nat.toDigits_of_base_le (by decide) hge, ← digits,
        List.head?_append, List.head?_eq_some_head (digits_ne_nil _), Option.some_or,
        ← List.head?_eq_some_head]
      exact ih (n / 10) (by omega) hdiv

theorem digits_zero : digits 0 = ['0'] := Nat.toDigits_zero 10

end Decimal

/-! ## Integers -/

namespace NumberLiteral

/-- A text that does not continue the number before it. -/
def Stops (rest : List Char) : Prop :=
  ∀ c ∈ rest.head?, c.isDigit = false ∧ c ≠ '.' ∧ c ≠ 'e' ∧ c ≠ 'E'

theorem stops_nil : Stops [] := by simp [Stops]

theorem stops_cons {c : Char} {cs : List Char}
    (h : c.isDigit = false ∧ c ≠ '.' ∧ c ≠ 'e' ∧ c ≠ 'E') : Stops (c :: cs) := by
  rintro c' hc'
  obtain rfl : c = c' := by simpa using hc'
  exact h

theorem spanDigits_append_of_head {ds rest : List Char} (hds : ∀ c ∈ ds, c.isDigit = true)
    (hrest : ∀ c ∈ rest.head?, c.isDigit = false) : spanDigits (ds ++ rest) = (ds, rest) := by
  have hspan : spanDigits rest = ([], rest) := by
    cases rest with
    | nil => rfl
    | cons c cs =>
      have hc : c.isDigit = false := hrest c (by simp)
      simp [spanDigits, hc]
  obtain ⟨htake, hdrop⟩ := Prod.mk.inj hspan
  rw [spanDigits, List.takeWhile_append_of_pos hds, List.dropWhile_append_of_pos hds, htake, hdrop,
    List.append_nil]

theorem spanDigits_append {ds rest : List Char} (hds : ∀ c ∈ ds, c.isDigit = true)
    (hrest : Stops rest) : spanDigits (ds ++ rest) = (ds, rest) :=
  spanDigits_append_of_head hds fun c hc ↦ (hrest c hc).1

theorem readFraction?_of_stops {rest : List Char} (h : Stops rest) :
    readFraction? rest = some (none, rest) := by
  unfold readFraction?
  split
  · exact absurd rfl (h '.' (by simp)).2.1
  · rfl

theorem readExponent?_of_stops {rest : List Char} (h : Stops rest) :
    readExponent? rest = some (none, rest) := by
  unfold readExponent?
  split
  · exact absurd rfl (h 'e' (by simp)).2.2.1
  · exact absurd rfl (h 'E' (by simp)).2.2.2
  · rfl

theorem readUnsigned?_digits (negative : Bool) (n : Nat) {rest : List Char} (h : Stops rest) :
    readUnsigned? negative (Decimal.digits n ++ rest)
      = some (⟨negative, Decimal.digits n, none, none⟩, rest) := by
  have hwhole : ¬(Decimal.digits n = [] ∨
      (Decimal.digits n).head? = some '0' ∧ (Decimal.digits n).length ≠ 1) := by
    rintro (hnil | ⟨hzero, hlength⟩)
    · exact Decimal.digits_ne_nil n hnil
    · by_cases hn : n = 0
      · rw [hn, Decimal.digits_zero] at hlength
        exact hlength rfl
      · exact Decimal.head?_digits_ne hn hzero
  rw [readUnsigned?, spanDigits_append (fun c ↦ Decimal.isDigit_of_mem_digits) h]
  simp [hwhole, readFraction?_of_stops h, readExponent?_of_stops h]

theorem int?_digits (n : WordInt) :
    int? ⟨decide (n.val < 0), Decimal.digits n.val.natAbs, none, none⟩ = some n := by
  have hfits : WordInt.ofInt? n.val = some n := dif_pos ⟨n.lower, n.upper⟩
  rw [int?, if_neg (by simp), Decimal.natOf_digits]
  rcases Int.lt_or_le n.val 0 with hneg | hpos
  · obtain ⟨m, hm⟩ : ∃ m, n.val.natAbs = m + 1 := Nat.exists_eq_succ_of_ne_zero (by omega)
    have hval : -((m + 1 : Nat) : Int) = n.val := by omega
    rw [decide_eq_true hneg, hm]
    change WordInt.ofInt? (-((m + 1 : Nat) : Int)) = some n
    rw [hval, hfits]
  · have hval : (n.val.natAbs : Int) = n.val := Int.natAbs_of_nonneg hpos
    rw [decide_eq_false (Int.not_lt.mpr hpos)]
    change WordInt.ofInt? (n.val.natAbs : Int) = some n
    rw [hval, hfits]

/-- **An integer reads back.** -/
theorem read?_text (n : WordInt) {rest : List Char} (h : Stops rest) :
    ∃ l, read? (n.text ++ rest) = some (l, rest) ∧ l.value? = some (.int n) := by
  have hvalue := int?_digits n
  rw [WordInt.text]
  rcases Int.lt_or_le n.val 0 with hneg | hpos
  · rw [decide_eq_true hneg] at hvalue
    rw [if_pos hneg]
    exact ⟨_, readUnsigned?_digits true _ h, by rw [value?, hvalue]⟩
  · rw [decide_eq_false (Int.not_lt.mpr hpos)] at hvalue
    rw [if_neg (Int.not_lt.mpr hpos)]
    refine ⟨_, ?_, by rw [value?, hvalue]⟩
    rw [← readUnsigned?_digits false _ h]
    -- The first character is a digit, so it is not taken for a minus.
    obtain ⟨c, ds, hds⟩ := List.exists_cons_of_ne_nil (Decimal.digits_ne_nil n.val.natAbs)
    have hdigit : c.isDigit = true :=
      Decimal.isDigit_of_mem_digits (n := n.val.natAbs) (hds ▸ List.mem_cons_self)
    rw [hds, List.cons_append]
    unfold read?
    split
    · next cs heq =>
      rw [(List.cons.inj heq).1] at hdigit
      cases hdigit
    · rfl

end NumberLiteral

/-! ## Tokens at the front of a text -/

namespace Token

theorem tokens?_blank {c : Char} {cs : List Char} (h : isBlank c = true) :
    tokens? (c :: cs) = tokens? cs := by
  rw [tokens?, if_pos h]

theorem tokens?_of_not_isBlank {c : Char} (hc : isBlank c = false) (cs : List Char) :
    tokens? (c :: cs) = (next? c cs).bind fun r ↦ (tokens? r.2).map (r.1 :: ·) := by
  rw [tokens?, if_neg (by simp [hc])]
  split
  · next hnone => rw [hnone, Option.bind_none]
  · next t rest hsome =>
    dsimp only
    rw [hsome, Option.bind_some]

theorem tokens?_next {c : Char} {cs rest : List Char} {t : Token} (hc : isBlank c = false)
    (h : next? c cs = some (t, rest)) : tokens? (c :: cs) = (tokens? rest).map (t :: ·) := by
  rw [tokens?_of_not_isBlank hc, h, Option.bind_some]

theorem next?_number {c : Char} (hc : c.isDigit = true ∨ c = '-') (cs : List Char) :
    next? c cs = (NumberLiteral.read? (c :: cs)).bind fun r ↦
      r.1.value?.map fun v ↦ (scalar v, r.2) := by
  have hne : ∀ d : Char, d.isDigit = false → d ≠ '-' → c ≠ d := by
    rintro d hd hminus rfl
    rcases hc with hc | hc
    · rw [hd] at hc
      cases hc
    · exact hminus hc
  unfold next?
  split
  case h_11 => cases NumberLiteral.read? (c :: cs) with
    | none => rfl
    | some r => cases h : r.1.value? <;> simp [h]
  all_goals exact absurd rfl (hne _ (by decide) (by decide))

theorem next?_of_read? {c : Char} {cs rest : List Char} {l : NumberLiteral} {v : Json}
    (hc : c.isDigit = true ∨ c = '-') (hread : NumberLiteral.read? (c :: cs) = some (l, rest))
    (hv : l.value? = some v) : next? c cs = some (scalar v, rest) := by
  rw [next?_number hc, hread, Option.bind_some, hv, Option.map_some]

theorem not_isBlank_of_isDigit {c : Char} (hc : c.isDigit = true ∨ c = '-') :
    isBlank c = false := by
  have hne : ∀ d : Char, d.isDigit = false → d ≠ '-' → (c == d) = false := by
    intro d hd hminus
    rw [beq_eq_false_iff_ne]
    rintro rfl
    rcases hc with hc | hc
    · rw [hd] at hc
      cases hc
    · exact hminus hc
  rw [isBlank, hne ' ' (by decide) (by decide), hne '\t' (by decide) (by decide),
    hne '\n' (by decide) (by decide), hne '\r' (by decide) (by decide)]
  rfl

theorem tokens?_text (n : WordInt) {rest : List Char} (h : NumberLiteral.Stops rest) :
    tokens? (n.text ++ rest) = (tokens? rest).map (scalar (.int n) :: ·) := by
  obtain ⟨l, hread, hvalue⟩ := NumberLiteral.read?_text n h
  obtain ⟨c, cs, hcs, hc⟩ : ∃ c cs, n.text = c :: cs ∧ (c.isDigit = true ∨ c = '-') := by
    rw [WordInt.text]
    split
    · exact ⟨_, _, rfl, .inr rfl⟩
    · obtain ⟨c, ds, hds⟩ := List.exists_cons_of_ne_nil (Decimal.digits_ne_nil n.val.natAbs)
      exact ⟨c, ds, hds, .inl (Decimal.isDigit_of_mem_digits (hds ▸ List.mem_cons_self))⟩
  rw [hcs, List.cons_append] at hread ⊢
  exact tokens?_next (not_isBlank_of_isDigit hc) (next?_of_read? hc hread hvalue)

/-! ## Strings -/

private theorem hexNumber?_control : ∀ n < 32,
    hexNumber? ['0', '0', hexDigit (n / 16), hexDigit (n % 16)] = some n := by decide

theorem readString?_unit {a b c d x : Char} {u : Nat} (hunit : unit? a b c d = some u)
    (hx : codePoint? u = some x) (read cs : List Char) :
    readString? read none ('\\' :: 'u' :: a :: b :: c :: d :: cs)
      = readString? (x :: read) none cs := by
  have hhigh : ¬(0xD800 ≤ u ∧ u < 0xDC00) := by
    unfold codePoint? at hx
    split at hx
    · omega
    · cases hx
  conv_lhs => unfold readString?
  simp [hunit, hhigh, hx]

theorem readString?_plain {c : Char} (hquote : c ≠ '"') (hback : c ≠ '\\') (hcontrol : ¬c < ' ')
    (read cs : List Char) : readString? read none (c :: cs) = readString? (c :: read) none cs := by
  conv_lhs => unfold readString?
  split
  · next heq => exact absurd (List.cons.inj heq).1 hback
  · next heq => exact absurd (List.cons.inj heq).1 hback
  · next heq => exact absurd (List.cons.inj heq).1 hquote
  · next heq =>
    obtain ⟨rfl, rfl⟩ := List.cons.inj heq
    simp [hcontrol]
  · next heq => cases heq

theorem readString?_escape (read : List Char) (c : Char) (cs : List Char) :
    readString? read none (Json.escape c ++ cs) = readString? (c :: read) none cs := by
  unfold Json.escape
  -- Seven characters have an escape of one letter.
  split
  · next h => simp [readString?, shortEscape?, h]
  split
  · next h => simp [readString?, shortEscape?, h]
  split
  · next h => simp [readString?, shortEscape?, h]
  split
  · next h => simp [readString?, shortEscape?, h]
  split
  · next h => simp [readString?, shortEscape?, h]
  split
  · next h => simp [readString?, shortEscape?, h]
  split
  · next h => simp [readString?, shortEscape?, h]
  -- The other control characters are escaped by number, and all others stand for themselves.
  split
  · next h =>
    have hlt : c.toNat < 32 := h
    have hpoint : codePoint? c.toNat = some c := by
      rw [codePoint?, if_pos (.inl (by omega)), Char.ofNat_toNat]
    exact readString?_unit (hexNumber?_control c.toNat hlt) hpoint read cs
  · next hquote hback _ _ _ _ _ hcontrol => exact readString?_plain hquote hback hcontrol read cs

theorem readString?_flatMap_escape (read s rest : List Char) :
    readString? read none (s.flatMap Json.escape ++ '"' :: rest)
      = some (read.reverse ++ s, rest) := by
  induction s generalizing read with
  | nil => simp [readString?]
  | cons c s ih =>
    rw [List.flatMap_cons, List.append_assoc, readString?_escape, ih, List.reverse_cons,
      List.append_assoc, List.singleton_append]

theorem readString?_quote (s : String) (rest : List Char) :
    readString? [] none (s.toList.flatMap Json.escape ++ ['"'] ++ rest)
      = some (s.toList, rest) := by
  rw [List.append_assoc, List.singleton_append, readString?_flatMap_escape]
  rfl

/-- **The text of a string is one token,** whatever the string holds and whatever follows. -/
theorem tokens?_quote (s : String) (rest : List Char) :
    tokens? (Json.quote s ++ rest) = (tokens? rest).map (string s :: ·) := by
  rw [Json.quote, List.cons_append, List.cons_append]
  refine tokens?_next rfl ?_
  rw [next?, readString?_quote, Option.map_some]
  exact congrArg (fun s ↦ some (string s, rest)) String.ofList_toList

end Token

end DeviceSnapshot
