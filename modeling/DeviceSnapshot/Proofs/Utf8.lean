import DeviceSnapshot.Utf8
import DeviceSnapshot.Proofs.ByteOrder
import DeviceSnapshot.Proofs.Result

/-!
# Bytes that encode a text

Reading bytes as UTF-8 succeeds exactly on the bytes that encode a text, and gives that text
(`Utf8.decode_eq_ok_iff`). The reader itself is a machine that takes one byte at a time, so the work
lies in one character: the machine completes a character at the front of bytes exactly when its
encoding is at the front (`segmentsFrom_eq_char_iff`).

A first byte opens a character and bounds the byte after it. These bounds leave only code points
that need the number of bytes at hand and are no surrogates, which is why the bytes that complete
the character are its encoding.
-/

namespace DeviceSnapshot

namespace Utf8

variable {b : UInt8} {bs rest : List UInt8} {c : Char} {ss : List Segment} {p : Open} {n : Nat}

/-! ## One byte -/

theorem segmentsFrom_cons (p : Option Open) (b : UInt8) (bs : List UInt8) :
    segmentsFrom p (b :: bs) = (step p b.toNat).1 ++ segmentsFrom (step p b.toNat).2 bs := by
  cases p <;> rfl

theorem segmentsFrom_last_iff (hp : p.missing ≤ 1) :
    segmentsFrom (some p) bs = .char c :: ss ↔ ∃ b rest, bs = b :: rest ∧
      (p.low ≤ b.toNat ∧ b.toNat ≤ p.high) ∧
      c = Char.ofNat (p.bits * 64 + (b.toNat - 0x80)) ∧ segmentsFrom none rest = ss := by
  cases bs with
  | nil => simp [segmentsFrom]
  | cons b bs =>
    rw [segmentsFrom_cons, step]
    by_cases hb : p.low ≤ b.toNat ∧ b.toNat ≤ p.high
    · rw [if_pos hb, if_pos hp]
      simp [hb, eq_comm]
    · rw [if_neg hb]
      simp [hb]

theorem segmentsFrom_next_iff (hp : 1 < p.missing) :
    segmentsFrom (some p) bs = .char c :: ss ↔ ∃ b rest, bs = b :: rest ∧
      (p.low ≤ b.toNat ∧ b.toNat ≤ p.high) ∧
      segmentsFrom (some ⟨p.missing - 1, 0x80, 0xBF, p.bits * 64 + (b.toNat - 0x80), p.length + 1⟩)
        rest = .char c :: ss := by
  cases bs with
  | nil => simp [segmentsFrom]
  | cons b bs =>
    rw [segmentsFrom_cons, step]
    by_cases hb : p.low ≤ b.toNat ∧ b.toNat ≤ p.high
    · rw [if_pos hb, if_neg (Nat.not_le.mpr hp)]
      simp [hb]
    · rw [if_neg hb]
      simp [hb]

/-! ## The first byte -/

theorem enter_one (h : n < 0x80) : enter n = ([.char (Char.ofNat n)], none) := if_pos h

theorem enter_two (h : 0xC2 ≤ n ∧ n ≤ 0xDF) :
    enter n = ([], some ⟨1, 0x80, 0xBF, n - 0xC0, 1⟩) := by
  rw [enter, if_neg (by omega), if_pos h]

theorem enter_three (h : 0xE0 ≤ n ∧ n ≤ 0xEF) :
    enter n = ([], some ⟨2, if n = 0xE0 then 0xA0 else 0x80, if n = 0xED then 0x9F else 0xBF,
      n - 0xE0, 1⟩) := by
  rw [enter, if_neg (by omega), if_neg (by omega)]
  by_cases hlow : n = 0xE0
  · subst hlow
    rfl
  rw [if_neg hlow, if_neg hlow]
  by_cases hhigh : n = 0xED
  · subst hhigh
    rfl
  rw [if_neg hhigh, if_neg hhigh, if_pos (by omega)]

theorem enter_four (h : 0xF0 ≤ n ∧ n ≤ 0xF4) :
    enter n = ([], some ⟨3, if n = 0xF0 then 0x90 else 0x80, if n = 0xF4 then 0x8F else 0xBF,
      n - 0xF0, 1⟩) := by
  rw [enter, if_neg (by omega), if_neg (by omega), if_neg (by omega), if_neg (by omega),
    if_neg (by omega)]
  by_cases hlow : n = 0xF0
  · subst hlow
    rfl
  rw [if_neg hlow, if_neg hlow]
  by_cases hhigh : n = 0xF4
  · subst hhigh
    rfl
  rw [if_pos (by omega), if_neg hhigh]

theorem enter_invalid (h : 0x80 ≤ n ∧ n < 0xC2 ∨ 0xF4 < n) : enter n = ([.invalid 1], none) := by
  rw [enter, if_neg (by omega), if_neg (by omega), if_neg (by omega), if_neg (by omega),
    if_neg (by omega), if_neg (by omega), if_neg (by omega), if_neg (by omega)]

/-! ## One character -/

theorem segmentsFrom_one_iff (hb : b.toNat < 0x80) :
    segmentsFrom none (b :: bs) = .char c :: ss ↔
      c = Char.ofNat b.toNat ∧ segmentsFrom none bs = ss := by
  rw [segmentsFrom_cons, step, enter_one hb]
  simp [eq_comm]

theorem segmentsFrom_two_iff (hb : 0xC2 ≤ b.toNat ∧ b.toNat ≤ 0xDF) :
    segmentsFrom none (b :: bs) = .char c :: ss ↔ ∃ b₁ rest, bs = b₁ :: rest ∧
      (0x80 ≤ b₁.toNat ∧ b₁.toNat ≤ 0xBF) ∧
      c = Char.ofNat ((b.toNat - 0xC0) * 64 + (b₁.toNat - 0x80)) ∧
      segmentsFrom none rest = ss := by
  rw [segmentsFrom_cons, step, enter_two hb, List.nil_append,
    segmentsFrom_last_iff (Nat.le_refl 1)]

theorem segmentsFrom_three_iff (hb : 0xE0 ≤ b.toNat ∧ b.toNat ≤ 0xEF) :
    segmentsFrom none (b :: bs) = .char c :: ss ↔ ∃ b₁ b₂ rest, bs = b₁ :: b₂ :: rest ∧
      ((if b.toNat = 0xE0 then 0xA0 else 0x80) ≤ b₁.toNat ∧
        b₁.toNat ≤ if b.toNat = 0xED then 0x9F else 0xBF) ∧
      (0x80 ≤ b₂.toNat ∧ b₂.toNat ≤ 0xBF) ∧
      c = Char.ofNat (((b.toNat - 0xE0) * 64 + (b₁.toNat - 0x80)) * 64 + (b₂.toNat - 0x80)) ∧
      segmentsFrom none rest = ss := by
  rw [segmentsFrom_cons, step, enter_three hb, List.nil_append,
    segmentsFrom_next_iff (Nat.lt_succ_self 1)]
  constructor
  · rintro ⟨b₁, bs, rfl, hb₁, h⟩
    obtain ⟨b₂, rest, rfl, hb₂, hc, h⟩ := (segmentsFrom_last_iff (Nat.le_refl 1)).mp h
    exact ⟨b₁, b₂, rest, rfl, hb₁, hb₂, hc, h⟩
  · rintro ⟨b₁, b₂, rest, rfl, hb₁, hb₂, hc, h⟩
    exact ⟨b₁, _, rfl, hb₁, (segmentsFrom_last_iff (Nat.le_refl 1)).mpr
      ⟨b₂, rest, rfl, hb₂, hc, h⟩⟩

theorem segmentsFrom_four_iff (hb : 0xF0 ≤ b.toNat ∧ b.toNat ≤ 0xF4) :
    segmentsFrom none (b :: bs) = .char c :: ss ↔ ∃ b₁ b₂ b₃ rest, bs = b₁ :: b₂ :: b₃ :: rest ∧
      ((if b.toNat = 0xF0 then 0x90 else 0x80) ≤ b₁.toNat ∧
        b₁.toNat ≤ if b.toNat = 0xF4 then 0x8F else 0xBF) ∧
      (0x80 ≤ b₂.toNat ∧ b₂.toNat ≤ 0xBF) ∧ (0x80 ≤ b₃.toNat ∧ b₃.toNat ≤ 0xBF) ∧
      c = Char.ofNat ((((b.toNat - 0xF0) * 64 + (b₁.toNat - 0x80)) * 64 + (b₂.toNat - 0x80)) * 64
        + (b₃.toNat - 0x80)) ∧
      segmentsFrom none rest = ss := by
  have hthree : 1 < 3 := by decide
  rw [segmentsFrom_cons, step, enter_four hb, List.nil_append, segmentsFrom_next_iff hthree]
  constructor
  · rintro ⟨b₁, bs, rfl, hb₁, h⟩
    obtain ⟨b₂, bs, rfl, hb₂, h⟩ := (segmentsFrom_next_iff (Nat.lt_succ_self 1)).mp h
    obtain ⟨b₃, rest, rfl, hb₃, hc, h⟩ := (segmentsFrom_last_iff (Nat.le_refl 1)).mp h
    exact ⟨b₁, b₂, b₃, rest, rfl, hb₁, hb₂, hb₃, hc, h⟩
  · rintro ⟨b₁, b₂, b₃, rest, rfl, hb₁, hb₂, hb₃, hc, h⟩
    exact ⟨b₁, _, rfl, hb₁, (segmentsFrom_next_iff (Nat.lt_succ_self 1)).mpr
      ⟨b₂, _, rfl, hb₂, (segmentsFrom_last_iff (Nat.le_refl 1)).mpr
        ⟨b₃, rest, rfl, hb₃, hc, h⟩⟩⟩

/-! ## The encoding of a character -/

theorem toNat_val_valid (c : Char) :
    c.val.toNat < 0xD800 ∨ 0xDFFF < c.val.toNat ∧ c.val.toNat < 0x110000 := c.valid

theorem toNat_val_ofNat (h : n < 0xD800 ∨ 0xDFFF < n ∧ n < 0x110000) :
    (Char.ofNat n).val.toNat = n := by
  have hvalid : n.isValidChar := h
  rw [Char.ofNat, dif_pos hvalid]
  exact UInt32.toNat_ofNatLT

theorem ofNat_toNat_val (c : Char) : Char.ofNat c.val.toNat = c :=
  Char.ext (UInt32.toNat_inj.mp (toNat_val_ofNat (toNat_val_valid c)))

theorem encode_one (h : c.val.toNat ≤ 0x7F) :
    String.utf8EncodeChar c = [UInt8.ofNat c.val.toNat] := by
  rw [String.utf8EncodeChar, if_pos h]

theorem encode_two (h : 0x7F < c.val.toNat ∧ c.val.toNat ≤ 0x7FF) :
    String.utf8EncodeChar c =
      [UInt8.ofNat (c.val.toNat / 64 % 32 + 192), UInt8.ofNat (c.val.toNat % 64 + 128)] := by
  rw [String.utf8EncodeChar, if_neg (by omega), if_pos h.2]

theorem encode_three (h : 0x7FF < c.val.toNat ∧ c.val.toNat ≤ 0xFFFF) :
    String.utf8EncodeChar c =
      [UInt8.ofNat (c.val.toNat / 4096 % 16 + 224), UInt8.ofNat (c.val.toNat / 64 % 64 + 128),
        UInt8.ofNat (c.val.toNat % 64 + 128)] := by
  rw [String.utf8EncodeChar, if_neg (by omega), if_neg (by omega), if_pos h.2]

theorem encode_four (h : 0xFFFF < c.val.toNat) :
    String.utf8EncodeChar c =
      [UInt8.ofNat (c.val.toNat / 262144 % 8 + 240), UInt8.ofNat (c.val.toNat / 4096 % 64 + 128),
        UInt8.ofNat (c.val.toNat / 64 % 64 + 128), UInt8.ofNat (c.val.toNat % 64 + 128)] := by
  rw [String.utf8EncodeChar, if_neg (by omega), if_neg (by omega), if_neg (by omega)]

theorem ofNat_eq_of_eq_toNat (h : n = b.toNat) : UInt8.ofNat n = b := by
  rw [h, UInt8.ofNat_toNat]

theorem exists_encode_of_segmentsFrom (h : segmentsFrom none bs = .char c :: ss) :
    ∃ rest, bs = String.utf8EncodeChar c ++ rest ∧ segmentsFrom none rest = ss := by
  cases bs with
  | nil => simp [segmentsFrom] at h
  | cons b bs =>
    have hb := b.toNat_lt
    -- The cases are those of the first byte. In each the bounds leave only code points of the
    -- right size, and the digits in base 64 are the bits of the bytes.
    by_cases h₁ : b.toNat < 0x80
    · obtain ⟨rfl, hrest⟩ := (segmentsFrom_one_iff h₁).mp h
      refine ⟨bs, ?_, hrest⟩
      have hn : (Char.ofNat b.toNat).val.toNat = b.toNat := toNat_val_ofNat (by omega)
      rw [encode_one (by omega), hn, UInt8.ofNat_toNat, List.singleton_append]
    by_cases h₂ : 0xC2 ≤ b.toNat ∧ b.toNat ≤ 0xDF
    · obtain ⟨b₁, rest, rfl, hb₁, hc, hrest⟩ := (segmentsFrom_two_iff h₂).mp h
      refine ⟨rest, ?_, hrest⟩
      have hn : c.val.toNat = (b.toNat - 0xC0) * 64 + (b₁.toNat - 0x80) := by
        rw [hc]
        exact toNat_val_ofNat (by omega)
      rw [encode_two (by omega), ofNat_eq_of_eq_toNat (b := b) (by omega),
        ofNat_eq_of_eq_toNat (b := b₁) (by omega)]
      rfl
    by_cases h₃ : 0xE0 ≤ b.toNat ∧ b.toNat ≤ 0xEF
    · obtain ⟨b₁, b₂, rest, rfl, hb₁, hb₂, hc, hrest⟩ := (segmentsFrom_three_iff h₃).mp h
      refine ⟨rest, ?_, hrest⟩
      have hn : c.val.toNat
          = ((b.toNat - 0xE0) * 64 + (b₁.toNat - 0x80)) * 64 + (b₂.toNat - 0x80) := by
        rw [hc]
        exact toNat_val_ofNat (by split_ifs at hb₁ <;> omega)
      have hsize : 0x7FF < c.val.toNat ∧ c.val.toNat ≤ 0xFFFF := by split_ifs at hb₁ <;> omega
      have hnext : 0x80 ≤ b₁.toNat ∧ b₁.toNat ≤ 0xBF := by split_ifs at hb₁ <;> omega
      rw [encode_three hsize, ofNat_eq_of_eq_toNat (b := b) (by omega),
        ofNat_eq_of_eq_toNat (b := b₁) (by omega), ofNat_eq_of_eq_toNat (b := b₂) (by omega)]
      rfl
    by_cases h₄ : 0xF0 ≤ b.toNat ∧ b.toNat ≤ 0xF4
    · obtain ⟨b₁, b₂, b₃, rest, rfl, hb₁, hb₂, hb₃, hc, hrest⟩ := (segmentsFrom_four_iff h₄).mp h
      refine ⟨rest, ?_, hrest⟩
      have hnext : 0x80 ≤ b₁.toNat ∧ b₁.toNat ≤ 0xBF := by split_ifs at hb₁ <;> omega
      have hn : c.val.toNat = (((b.toNat - 0xF0) * 64 + (b₁.toNat - 0x80)) * 64
          + (b₂.toNat - 0x80)) * 64 + (b₃.toNat - 0x80) := by
        rw [hc]
        exact toNat_val_ofNat (by split_ifs at hb₁ <;> omega)
      have hsize : 0xFFFF < c.val.toNat := by split_ifs at hb₁ <;> omega
      rw [encode_four hsize, ofNat_eq_of_eq_toNat (b := b) (by omega),
        ofNat_eq_of_eq_toNat (b := b₁) (by omega), ofNat_eq_of_eq_toNat (b := b₂) (by omega),
        ofNat_eq_of_eq_toNat (b := b₃) (by omega)]
      rfl
    · rw [segmentsFrom_cons, step, enter_invalid (by omega)] at h
      simp at h

private theorem toNat_ofNat_of_lt (h : n < 256) : (UInt8.ofNat n).toNat = n :=
  UInt8.toNat_ofNat_of_lt h

theorem segmentsFrom_encode_append (c : Char) (rest : List UInt8) :
    segmentsFrom none (String.utf8EncodeChar c ++ rest) = .char c :: segmentsFrom none rest := by
  have hvalid := toNat_val_valid c
  have hlast : (UInt8.ofNat (c.val.toNat % 64 + 128)).toNat = c.val.toNat % 64 + 128 :=
    toNat_ofNat_of_lt (by omega)
  have hnext : (UInt8.ofNat (c.val.toNat / 64 % 64 + 128)).toNat = c.val.toNat / 64 % 64 + 128 :=
    toNat_ofNat_of_lt (by omega)
  by_cases h₁ : c.val.toNat ≤ 0x7F
  · have hb : (UInt8.ofNat c.val.toNat).toNat = c.val.toNat := toNat_ofNat_of_lt (by omega)
    rw [encode_one h₁, List.singleton_append, segmentsFrom_one_iff (by omega), hb,
      ofNat_toNat_val]
    exact ⟨rfl, rfl⟩
  by_cases h₂ : c.val.toNat ≤ 0x7FF
  · have hb : (UInt8.ofNat (c.val.toNat / 64 % 32 + 192)).toNat = c.val.toNat / 64 % 32 + 192 :=
      toNat_ofNat_of_lt (by omega)
    rw [encode_two ⟨by omega, h₂⟩, List.cons_append, segmentsFrom_two_iff (by omega)]
    refine ⟨_, rest, rfl, by omega, ?_, rfl⟩
    have hn : (c.val.toNat / 64 % 32 + 192 - 0xC0) * 64 + (c.val.toNat % 64 + 128 - 0x80)
        = c.val.toNat := by omega
    rw [hb, hlast, hn, ofNat_toNat_val]
  by_cases h₃ : c.val.toNat ≤ 0xFFFF
  · have hb : (UInt8.ofNat (c.val.toNat / 4096 % 16 + 224)).toNat
        = c.val.toNat / 4096 % 16 + 224 := toNat_ofNat_of_lt (by omega)
    rw [encode_three ⟨by omega, h₃⟩, List.cons_append, segmentsFrom_three_iff (by omega)]
    refine ⟨_, _, rest, rfl, ?_, by omega, ?_, rfl⟩
    · rw [hb, hnext]
      split_ifs <;> omega
    · have hn : ((c.val.toNat / 4096 % 16 + 224 - 0xE0) * 64
          + (c.val.toNat / 64 % 64 + 128 - 0x80)) * 64 + (c.val.toNat % 64 + 128 - 0x80)
          = c.val.toNat := by omega
      rw [hb, hnext, hlast, hn, ofNat_toNat_val]
  · have hb : (UInt8.ofNat (c.val.toNat / 262144 % 8 + 240)).toNat
        = c.val.toNat / 262144 % 8 + 240 := toNat_ofNat_of_lt (by omega)
    have hb₁ : (UInt8.ofNat (c.val.toNat / 4096 % 64 + 128)).toNat
        = c.val.toNat / 4096 % 64 + 128 := toNat_ofNat_of_lt (by omega)
    rw [encode_four (by omega), List.cons_append, segmentsFrom_four_iff (by omega)]
    refine ⟨_, _, _, rest, rfl, ?_, by omega, by omega, ?_, rfl⟩
    · rw [hb, hb₁]
      split_ifs <;> omega
    · have hn : (((c.val.toNat / 262144 % 8 + 240 - 0xF0) * 64
          + (c.val.toNat / 4096 % 64 + 128 - 0x80)) * 64
          + (c.val.toNat / 64 % 64 + 128 - 0x80)) * 64 + (c.val.toNat % 64 + 128 - 0x80)
          = c.val.toNat := by omega
      rw [hb, hb₁, hnext, hlast, hn, ofNat_toNat_val]

/-- **A character is completed exactly where its encoding stands.** -/
theorem segmentsFrom_eq_char_iff : segmentsFrom none bs = .char c :: ss ↔
    ∃ rest, bs = String.utf8EncodeChar c ++ rest ∧ segmentsFrom none rest = ss := by
  refine ⟨exists_encode_of_segmentsFrom, ?_⟩
  rintro ⟨rest, rfl, rfl⟩
  exact segmentsFrom_encode_append c rest

/-! ## A whole text -/

theorem isSome_step {p : Option Open} (h : (step p n).1 = []) : (step p n).2.isSome := by
  cases p with
  | none =>
    rw [step] at *
    unfold enter at *
    split_ifs at * <;> simp_all
  | some p =>
    rw [step] at *
    split_ifs at *
    simp_all

theorem segmentsFrom_eq_nil_iff {p : Option Open} :
    segmentsFrom p bs = [] ↔ p = none ∧ bs = [] := by
  induction bs generalizing p with
  | nil => cases p <;> simp [segmentsFrom]
  | cons b bs ih =>
    rw [segmentsFrom_cons, List.append_eq_nil_iff, ih]
    constructor
    · rintro ⟨hnil, hnone, -⟩
      simpa [hnone] using isSome_step hnil
    · rintro ⟨-, hcons⟩
      cases hcons

theorem segments_eq_map_char_iff {cs : List Char} :
    segments bs = cs.map .char ↔ bs = cs.flatMap String.utf8EncodeChar := by
  rw [segments]
  induction cs generalizing bs with
  | nil => simp [segmentsFrom_eq_nil_iff]
  | cons c cs ih =>
    rw [List.map_cons, segmentsFrom_eq_char_iff, List.flatMap_cons]
    constructor
    · rintro ⟨rest, rfl, hrest⟩
      rw [ih.mp hrest]
    · rintro rfl
      exact ⟨_, rfl, ih.mpr rfl⟩

theorem chars_eq_ok_iff {index : Nat} {cs : List Char} :
    chars index ss = .ok cs ↔ ss = cs.map .char := by
  fun_induction chars index ss generalizing cs with
  | case1 => cases cs <;> simp
  | case2 index c ss ih =>
    cases cs with
    | nil => cases hss : chars (index + c.utf8Size) ss <;> simp [Except.map]
    | cons d ds =>
      rw [List.map_cons, List.cons.injEq, Segment.char.injEq, ← ih]
      cases hss : chars (index + c.utf8Size) ss <;> simp [Except.map]
  | case3 | case4 => cases cs <;> simp

/-- **Bytes read as a text exactly if they are its encoding.** -/
theorem decode_eq_ok_iff {s : String} : decode bs = .ok s ↔ bs = bytes s := by
  rw [bytes_eq, ← segments_eq_map_char_iff, ← chars_eq_ok_iff, decode, map_eq_ok_iff]
  constructor
  · rintro ⟨cs, hcs, rfl⟩
    rwa [String.toList_ofList]
  · intro h
    exact ⟨s.toList, h, String.ofList_toList⟩

theorem decodeLossy_bytes (s : String) : decodeLossy (bytes s) = s := by
  have hchars : Segment.lossy ∘ Segment.char = id := rfl
  rw [decodeLossy, segments_eq_map_char_iff.mpr (bytes_eq s), List.map_map, hchars, List.map_id,
    String.ofList_toList]

end Utf8

end DeviceSnapshot
