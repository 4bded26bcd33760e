import Mathlib.Tactic.Common

/-!
# The order of texts by their bytes

Keys are kept in the order of their code points, and outside the program they are compared by the
bytes of their UTF-8 encoding. These are one order: `lt_iff_precedes`.

The encoding of a character starts with a byte that grows with the number of bytes, and within one
number of bytes the code point is written in base 64, most significant digit first. So of two
different characters the smaller has the smaller encoding whatever follows them.
-/

namespace DeviceSnapshot

namespace Utf8

/-- The bytes of the UTF-8 encoding of a text. -/
def bytes (s : String) : List UInt8 := s.toUTF8.data.toList

/-- A text comes before another one in the order of their bytes. -/
def Precedes (s t : String) : Prop := List.Lex (· < ·) (bytes s) (bytes t)

instance (s t : String) : Decidable (Precedes s t) :=
  inferInstanceAs (Decidable (List.Lex (· < ·) (bytes s) (bytes t)))

theorem bytes_eq (s : String) : bytes s = s.toList.flatMap String.utf8EncodeChar := by
  have h : s.toUTF8 = s.toList.utf8Encode := by
    rw [String.toUTF8_eq_toByteArray]
    exact String.utf8Encode_toList.symm
  rw [bytes, h, List.utf8Encode, List.toList_data_toByteArray]

private theorem ofNat_lt_ofNat_iff {m n : Nat} :
    UInt8.ofNat m < UInt8.ofNat n ↔ m % 256 < n % 256 := by
  rw [UInt8.lt_iff_toNat_lt, UInt8.toNat_ofNat', UInt8.toNat_ofNat']

private theorem ofNat_eq_ofNat_iff {m n : Nat} :
    UInt8.ofNat m = UInt8.ofNat n ↔ m % 256 = n % 256 := by
  rw [← UInt8.toNat_inj, UInt8.toNat_ofNat', UInt8.toNat_ofNat']

/-- The smaller of two characters has the smaller encoding, and neither encoding begins the
other. -/
theorem encode_append_lt {c d : Char} (h : c < d) (x y : List UInt8) :
    List.Lex (· < ·) (String.utf8EncodeChar c ++ x) (String.utf8EncodeChar d ++ y) := by
  have hlt : c.val.toNat < d.val.toNat := h
  have hd : d.val.toNat < 0x110000 := by
    rcases d.valid with h | h <;> omega
  unfold String.utf8EncodeChar
  simp only
  generalize c.val.toNat = m at *
  generalize d.val.toNat = n at *
  -- With fewer bytes the first byte decides; with equally many, the digits in base 64.
  by_cases h1 : m ≤ 0x7f
  · rw [if_pos h1]
    split_ifs <;>
      simp only [List.cons_append, List.nil_append, List.cons_lex_cons_iff, ofNat_lt_ofNat_iff,
        ofNat_eq_ofNat_iff] <;>
      omega
  by_cases h2 : m ≤ 0x7ff
  · rw [if_neg h1, if_pos h2, if_neg (by omega)]
    split_ifs <;>
      simp only [List.cons_append, List.nil_append, List.cons_lex_cons_iff, ofNat_lt_ofNat_iff,
        ofNat_eq_ofNat_iff] <;>
      omega
  by_cases h3 : m ≤ 0xffff
  · rw [if_neg h1, if_neg h2, if_pos h3, if_neg (by omega), if_neg (by omega)]
    split_ifs <;>
      simp only [List.cons_append, List.nil_append, List.cons_lex_cons_iff, ofNat_lt_ofNat_iff,
        ofNat_eq_ofNat_iff] <;>
      omega
  · rw [if_neg h1, if_neg h2, if_neg h3, if_neg (by omega), if_neg (by omega), if_neg (by omega)]
    simp only [List.cons_append, List.nil_append, List.cons_lex_cons_iff, ofNat_lt_ofNat_iff,
      ofNat_eq_ofNat_iff]
    have hfirst : ∀ k : Nat, k < 8 → (k % 8 + 240) % 256 = k + 240 := by omega
    have hnext : ∀ k : Nat, (k % 64 + 128) % 256 = k % 64 + 128 := by omega
    rw [hfirst (m / 262144) (by omega), hfirst (n / 262144) (by omega), hnext, hnext, hnext, hnext,
      hnext, hnext]
    omega

private theorem lex_flatMap_of_lt {cs ds : List Char} (h : List.Lex (· < ·) cs ds) :
    List.Lex (· < ·) (cs.flatMap String.utf8EncodeChar) (ds.flatMap String.utf8EncodeChar) := by
  induction h with
  | @nil d ds =>
    rw [List.flatMap_nil, List.flatMap_cons]
    obtain ⟨b, bs, hb⟩ := List.exists_cons_of_ne_nil (String.utf8EncodeChar_ne_nil (c := d))
    rw [hb]
    exact .nil
  | rel h =>
    rw [List.flatMap_cons, List.flatMap_cons]
    exact encode_append_lt h _ _
  | cons _ ih =>
    rw [List.flatMap_cons, List.flatMap_cons]
    exact List.append_left_lt ih

theorem precedes_of_lt {s t : String} (h : s < t) : Precedes s t := by
  rw [Precedes, bytes_eq, bytes_eq]
  exact lex_flatMap_of_lt h

theorem not_precedes_self (s : String) : ¬Precedes s s := List.lt_irrefl (bytes s)

theorem Precedes.asymm {s t : String} (h : Precedes s t) : ¬Precedes t s := List.lt_asymm h

/-- **Code point order is byte order.** -/
theorem lt_iff_precedes {s t : String} : s < t ↔ Precedes s t := by
  refine ⟨precedes_of_lt, fun h ↦ ?_⟩
  by_contra hlt
  by_cases hts : t < s
  · exact h.asymm (precedes_of_lt hts)
  · rw [String.le_antisymm (String.not_lt.mp hts) (String.not_lt.mp hlt)] at h
    exact not_precedes_self t h

theorem le_iff_not_precedes {s t : String} : s ≤ t ↔ ¬Precedes t s := by
  rw [← lt_iff_precedes, String.not_lt]

end Utf8

end DeviceSnapshot
