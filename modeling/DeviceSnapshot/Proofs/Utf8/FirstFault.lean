import DeviceSnapshot.Proofs.Utf8

/-!
# The first fault of bytes

Bytes that encode no text begin with the encoding of one, as long as can be, and then comes a stray:
a stretch that belongs to no character. What a stray is can be said without the reader. No character
stands there as a whole, and the stray is the longest beginning of a character that does, or a
single byte when no character begins with it.

The reader ends a stray when a byte does not go into the open character, or when there are no more
bytes. Two facts about an open character show that this is the right place. Any byte within its
bounds can be followed by others that complete it (`exists_completion`), so what was read is the
beginning of a character. And a byte out of bounds would break a character that is read as a whole,
so no character begins with what was read and this byte (`Opened.not_begins`).
-/

namespace DeviceSnapshot

namespace Utf8

variable {b : UInt8} {bs pre q bad rest : List UInt8} {c : Char} {ss : List Segment} {g : Segment}
  {p : Open} {s t : String}

/-! ## Strays -/

/-- Bytes that begin the encoding of a character, or are all of it. -/
def Begins (bs : List UInt8) : Prop := ∃ c, bs <+: String.utf8EncodeChar c

theorem Begins.of_prefix (h : Begins bs) (hq : q <+: bs) : Begins q := by
  obtain ⟨c, hc⟩ := h
  exact ⟨c, hq.trans hc⟩

/-- Bytes in front of others that belong to no character. -/
structure Stray (bad rest : List UInt8) : Prop where
  ne_nil : bad ≠ []
  /-- No character stands here as a whole. -/
  not_char : ∀ c, ¬String.utf8EncodeChar c <+: bad ++ rest
  /-- They begin a character, or are a single byte. -/
  begins_or : Begins bad ∨ bad.length = 1
  /-- No longer stretch begins a character. -/
  longest : ∀ q, q <+: bad ++ rest → Begins q → q.length ≤ bad.length

/-- How a stray is recorded. At the end of the bytes a character that has begun may only lack what
would follow. -/
inductive Recorded (bad : List UInt8) : List UInt8 → Segment → Prop
  | incomplete (h : Begins bad) : Recorded bad [] (.incomplete bad.length)
  | invalid {rest : List UInt8} (h : rest = [] → ¬Begins bad) :
    Recorded bad rest (.invalid bad.length)

/-- That no longer stretch begins a character is seen at the next byte. -/
theorem length_le_of_begins (hnext : ∀ b ∈ rest.head?, ¬Begins (bad ++ [b]))
    (hq : q <+: bad ++ rest) (h : Begins q) : q.length ≤ bad.length := by
  by_contra hlt
  rcases rest with _ | ⟨b, rest⟩
  · rw [List.append_nil] at hq
    exact hlt hq.length_le
  · have hbad : bad ++ [b] <+: bad ++ b :: rest := ⟨rest, by simp⟩
    have hlength : (bad ++ [b]).length ≤ q.length := by
      rw [List.length_append, List.length_singleton]
      omega
    exact hnext b rfl (h.of_prefix (List.prefix_of_prefix_length_le hbad hq hlength))

theorem not_encode_prefix (h : segments bs = g :: ss) (hg : ∀ c, g ≠ .char c) (c : Char) :
    ¬String.utf8EncodeChar c <+: bs := by
  rintro ⟨rest, rfl⟩
  rw [segments, segmentsFrom_encode_append] at h
  exact hg c (List.cons.inj h).1.symm

/-! ## Open characters -/

/-- The bytes before have opened a character: reading them all, from the start on, comes to reading
the others with this character open. -/
structure Opened (pre : List UInt8) (p : Open) : Prop where
  ne_nil : pre ≠ []
  length_eq : p.length = pre.length
  /-- Some byte is within bounds. -/
  bounds : p.low ≤ p.high ∧ p.low < 256
  reads : ∀ bs, segments (pre ++ bs) = segmentsFrom (some p) bs

theorem tail_bounds : 0x80 ≤ 0xBF ∧ 0x80 < 256 := by decide

theorem opened_enter (b : UInt8) : (∃ c, enter b.toNat = ([.char c], none)) ∨
    enter b.toNat = ([.invalid 1], none) ∨ ∃ p, Opened [b] p := by
  have hopened : ∀ p, enter b.toNat = ([], some p) → p.length = 1 →
      p.low ≤ p.high ∧ p.low < 256 → Opened [b] p := by
    intro p hp hlength hbounds
    refine ⟨by simp, hlength, hbounds, fun bs ↦ ?_⟩
    rw [segments, List.singleton_append, segmentsFrom_cons, step, hp, List.nil_append]
  by_cases h₁ : b.toNat < 0x80
  · exact .inl ⟨_, enter_one h₁⟩
  by_cases h₂ : 0xC2 ≤ b.toNat ∧ b.toNat ≤ 0xDF
  · exact .inr (.inr ⟨_, hopened _ (enter_two h₂) rfl tail_bounds⟩)
  by_cases h₃ : 0xE0 ≤ b.toNat ∧ b.toNat ≤ 0xEF
  · refine .inr (.inr ⟨_, hopened _ (enter_three h₃) rfl ?_⟩)
    dsimp only
    split_ifs <;> omega
  by_cases h₄ : 0xF0 ≤ b.toNat ∧ b.toNat ≤ 0xF4
  · refine .inr (.inr ⟨_, hopened _ (enter_four h₄) rfl ?_⟩)
    dsimp only
    split_ifs <;> omega
  · exact .inr (.inl (enter_invalid (by omega)))

theorem Opened.next (h : Opened pre p) (hmissing : 1 < p.missing)
    (hb : p.low ≤ b.toNat ∧ b.toNat ≤ p.high) : Opened (pre ++ [b])
      ⟨p.missing - 1, 0x80, 0xBF, p.bits * 64 + (b.toNat - 0x80), p.length + 1⟩ := by
  refine ⟨by simp, ?_, tail_bounds, fun bs ↦ ?_⟩
  · rw [List.length_append, ← h.length_eq]
    rfl
  · rw [List.append_assoc, List.singleton_append, h.reads, segmentsFrom_cons, step, if_pos hb,
      if_neg (Nat.not_le.mpr hmissing), List.nil_append]

theorem segmentsFrom_of_out (hb : ¬(p.low ≤ b.toNat ∧ b.toNat ≤ p.high)) (bs : List UInt8) :
    segmentsFrom (some p) (b :: bs) = .invalid p.length :: segments (b :: bs) := by
  have hstep : step (some p) b.toNat
      = (.invalid p.length :: (enter b.toNat).1, (enter b.toNat).2) := if_neg hb
  rw [segments, segmentsFrom_cons, segmentsFrom_cons, hstep]
  rfl

/-- An open character can be completed. -/
theorem exists_completion (hp : p.low ≤ p.high ∧ p.low < 256) :
    ∃ bs c, segmentsFrom (some p) bs = [.char c] := by
  -- The least byte within bounds goes on, and after it all bounds are those of `tail_bounds`.
  obtain ⟨b, hb⟩ : ∃ b : UInt8, p.low ≤ b.toNat ∧ b.toNat ≤ p.high := by
    have hlow : (UInt8.ofNat p.low).toNat = p.low := UInt8.toNat_ofNat_of_lt hp.2
    exact ⟨UInt8.ofNat p.low, Nat.le_of_eq hlow.symm, Nat.le_trans (Nat.le_of_eq hlow) hp.1⟩
  have htail : 0x80 ≤ (0x80 : UInt8).toNat ∧ (0x80 : UInt8).toNat ≤ 0xBF := by decide
  obtain ⟨n, hn⟩ : ∃ n, p.missing ≤ n + 1 := ⟨p.missing, Nat.le_succ _⟩
  induction n generalizing p b with
  | zero => exact ⟨_, _, (segmentsFrom_last_iff hn).mpr ⟨b, [], rfl, hb, rfl, rfl⟩⟩
  | succ n ih =>
    by_cases hmissing : p.missing ≤ 1
    · exact ⟨_, _, (segmentsFrom_last_iff hmissing).mpr ⟨b, [], rfl, hb, rfl, rfl⟩⟩
    · have hpred : p.missing - 1 ≤ n + 1 := by omega
      obtain ⟨bs, c, h⟩ := ih (p := ⟨p.missing - 1, 0x80, 0xBF,
        p.bits * 64 + (b.toNat - 0x80), p.length + 1⟩) tail_bounds 0x80 htail hpred
      exact ⟨_, c, (segmentsFrom_next_iff (Nat.not_le.mp hmissing)).mpr ⟨b, bs, rfl, hb, h⟩⟩

theorem Opened.begins (h : Opened pre p) : Begins pre := by
  obtain ⟨bs, c, hbs⟩ := exists_completion h.bounds
  obtain ⟨rest, hrest, hnil⟩ := exists_encode_of_segmentsFrom ((h.reads bs).trans hbs)
  obtain ⟨-, rfl⟩ := segmentsFrom_eq_nil_iff.mp hnil
  rw [List.append_nil] at hrest
  exact ⟨c, bs, hrest⟩

theorem Opened.not_begins (h : Opened pre p) (hb : ¬(p.low ≤ b.toNat ∧ b.toNat ≤ p.high)) :
    ¬Begins (pre ++ [b]) := by
  rintro ⟨c, bs, hbs⟩
  have hchar := segmentsFrom_encode_append c []
  rw [List.append_nil, ← hbs, List.append_assoc, List.singleton_append, ← segments, h.reads,
    segmentsFrom_of_out hb] at hchar
  exact absurd (List.cons.inj hchar).1 (by simp)

/-- With a character open, either it is completed or a stray is recorded. -/
theorem Opened.exists_recorded (h : Opened pre p) (hbs : segmentsFrom (some p) bs = g :: ss)
    (hg : ∀ c, g ≠ .char c) : ∃ bad rest, pre ++ bs = bad ++ rest ∧ bad ≠ [] ∧ Begins bad ∧
      (∀ b ∈ rest.head?, ¬Begins (bad ++ [b])) ∧ Recorded bad rest g ∧ ss = segments rest := by
  induction bs generalizing pre p with
  | nil =>
    obtain ⟨rfl, rfl⟩ := List.cons.inj hbs
    refine ⟨pre, [], rfl, h.ne_nil, h.begins, by simp, ?_, rfl⟩
    rw [h.length_eq]
    exact .incomplete h.begins
  | cons b bs ih =>
    by_cases hb : p.low ≤ b.toNat ∧ b.toNat ≤ p.high
    · by_cases hmissing : p.missing ≤ 1
      · have hchar := (segmentsFrom_last_iff hmissing).mpr ⟨b, bs, rfl, hb, rfl, rfl⟩
        rw [hbs] at hchar
        exact absurd (List.cons.inj hchar).1 (hg _)
      · have hnext := h.next (Nat.not_le.mp hmissing) hb
        rw [← h.reads, ← List.singleton_append, ← List.append_assoc, hnext.reads] at hbs
        obtain ⟨bad, rest, heq, hrest⟩ := ih hnext hbs
        refine ⟨bad, rest, ?_, hrest⟩
        rw [← heq, List.append_assoc, List.singleton_append]
    · rw [segmentsFrom_of_out hb] at hbs
      obtain ⟨rfl, rfl⟩ := List.cons.inj hbs
      refine ⟨pre, b :: bs, rfl, h.ne_nil, h.begins, ?_, ?_, rfl⟩
      · rintro b' hb'
        obtain rfl : b = b' := Option.some.inj hb'
        exact h.not_begins hb
      · rw [h.length_eq]
        exact .invalid fun hnil ↦ absurd hnil (List.cons_ne_nil b bs)

/-- **What is read is a character or a stray.** -/
theorem exists_stray (h : segments bs = g :: ss) (hg : ∀ c, g ≠ .char c) : ∃ bad rest,
    bs = bad ++ rest ∧ Stray bad rest ∧ Recorded bad rest g ∧ ss = segments rest := by
  have hnot := not_encode_prefix h hg
  rcases bs with _ | ⟨b, bs⟩
  · exact absurd h (List.cons_ne_nil g ss).symm
  rcases opened_enter b with ⟨c, hc⟩ | hinvalid | ⟨p, hp⟩
  · rw [segments, segmentsFrom_cons, step, hc] at h
    exact absurd (List.cons.inj h).1.symm (hg c)
  · rw [segments, segmentsFrom_cons, step, hinvalid] at h
    obtain ⟨rfl, rfl⟩ := List.cons.inj h
    -- A character that begins with this byte would be read as one.
    have hbegins : ¬Begins [b] := by
      rintro ⟨c, z, hz⟩
      have hchar := segmentsFrom_encode_append c []
      rw [List.append_nil, ← hz, List.singleton_append, segmentsFrom_cons, step, hinvalid] at hchar
      exact absurd (List.cons.inj hchar).1 (by simp)
    refine ⟨[b], bs, rfl, ⟨by simp, hnot, .inr rfl, fun q hq ↦ ?_⟩, .invalid fun _ ↦ hbegins, rfl⟩
    exact length_le_of_begins (fun b' _ hb' ↦ hbegins (hb'.of_prefix ⟨[b'], rfl⟩)) hq
  · have hbs : segmentsFrom (some p) bs = g :: ss := (hp.reads bs).symm.trans h
    obtain ⟨bad, rest, heq, hne, hbegins, hnext, hrecorded, hss⟩ := hp.exists_recorded hbs hg
    rw [List.singleton_append] at heq
    rw [heq] at hnot ⊢
    exact ⟨bad, rest, rfl, ⟨hne, hnot, .inl hbegins, fun q ↦ length_le_of_begins hnext⟩, hrecorded,
      hss⟩

/-! ## The text before the first stray -/

theorem segments_bytes_append (s : String) (bs : List UInt8) :
    segments (bytes s ++ bs) = s.toList.map .char ++ segments bs := by
  rw [bytes_eq]
  induction s.toList with
  | nil => rfl
  | cons c cs ih =>
    rw [List.flatMap_cons, List.append_assoc, List.map_cons, List.cons_append, ← ih]
    exact segmentsFrom_encode_append c _

/-- A text, a stray behind it, and what follows. The text is the longest one that the bytes begin
with. -/
structure FirstFault (bs : List UInt8) (s : String) (bad rest : List UInt8) : Prop where
  eq_append : bs = bytes s ++ (bad ++ rest)
  stray : Stray bad rest
  longest : ∀ t, bytes t <+: bs → (bytes t).length ≤ (bytes s).length

/-- A text that bytes begin with is read first, so it ends before the first stray. -/
theorem length_bytes_le (hg : ∀ c, g ≠ .char c) (h : segments bs = s.toList.map .char ++ g :: ss)
    (ht : bytes t <+: bs) : (bytes t).length ≤ (bytes s).length := by
  obtain ⟨rest, rfl⟩ := ht
  rw [segments_bytes_append] at h
  have hprefix : t.toList.map Segment.char <+: s.toList.map Segment.char := by
    rcases List.append_eq_append_iff.mp h with ⟨cs, hs, -⟩ | ⟨cs, ht, hcs⟩
    · exact ⟨cs, hs.symm⟩
    · rcases cs with _ | ⟨g', cs⟩
      · exact ⟨[], by rw [ht, List.append_nil, List.append_nil]⟩
      · -- The stray would be one of the characters of the text.
        obtain ⟨rfl, -⟩ := List.cons.inj hcs
        have hmem : g ∈ t.toList.map Segment.char := by simp [ht]
        obtain ⟨c, -, rfl⟩ := List.mem_map.mp hmem
        exact absurd rfl (hg c)
  have hchars : t.toList <+: s.toList :=
    (List.prefix_map_iff_of_injective fun _ _ ↦ Segment.char.inj).mp hprefix
  obtain ⟨cs, hcs⟩ := hchars
  rw [bytes_eq, bytes_eq, ← hcs, List.flatMap_append, List.length_append]
  exact Nat.le_add_right _ _

theorem exists_first_not_char (ss : List Segment) : (∃ cs : List Char, ss = cs.map .char) ∨
    ∃ (cs : List Char) (g : Segment) (ss' : List Segment), ss = cs.map .char ++ g :: ss' ∧
      ∀ c, g ≠ .char c := by
  induction ss with
  | nil => exact .inl ⟨[], rfl⟩
  | cons g ss ih =>
    by_cases hg : ∃ c, g = .char c
    · obtain ⟨c, rfl⟩ := hg
      rcases ih with ⟨cs, rfl⟩ | ⟨cs, g, ss', rfl, hg⟩
      · exact .inl ⟨c :: cs, rfl⟩
      · exact .inr ⟨c :: cs, g, ss', rfl, hg⟩
    · exact .inr ⟨[], g, ss, rfl, not_exists.mp hg⟩

theorem exists_bytes_append {cs : List Char} (h : segments bs = cs.map .char ++ ss) :
    ∃ rest, bs = bytes (String.ofList cs) ++ rest ∧ segments rest = ss := by
  rw [bytes_eq, String.toList_ofList]
  induction cs generalizing bs with
  | nil => exact ⟨bs, rfl, h⟩
  | cons c cs ih =>
    obtain ⟨bs', rfl, hbs'⟩ := exists_encode_of_segmentsFrom h
    obtain ⟨rest, rfl, hrest⟩ := ih hbs'
    exact ⟨rest, by rw [List.flatMap_cons, List.append_assoc], hrest⟩

/-- The fault of segments is that of the first segment that is no character. Its index is the number
of bytes before. -/
theorem chars_map_char_append {f : Nat → Fault}
    (hf : ∀ index, chars index (g :: ss) = .error (f index)) (cs : List Char) (index : Nat) :
    chars index (cs.map .char ++ g :: ss)
      = .error (f (index + (cs.flatMap String.utf8EncodeChar).length)) := by
  induction cs generalizing index with
  | nil => exact hf index
  | cons c cs ih =>
    rw [List.map_cons, List.cons_append, chars, ih, List.flatMap_cons, List.length_append,
      String.length_utf8EncodeChar, ← Nat.add_assoc]
    rfl

theorem decode_of_segments (h : segments bs = s.toList.map .char ++ g :: ss) {f : Nat → Fault}
    (hf : ∀ index, chars index (g :: ss) = .error (f index)) :
    decode bs = .error (f (bytes s).length) := by
  rw [decode, h, chars_map_char_append hf, Nat.zero_add, ← bytes_eq]
  rfl

theorem decodeLossy_of_segments (h : segments bs = s.toList.map .char ++ g :: segments rest)
    (hg : ∀ c, g ≠ .char c) : decodeLossy bs = s ++ "\ufffd" ++ decodeLossy rest := by
  have hlossy : g.lossy = '\ufffd' := by
    rcases g with c | _ | _
    · exact absurd rfl (hg c)
    · rfl
    · rfl
  have hchars : Segment.lossy ∘ Segment.char = id := rfl
  rw [decodeLossy, h, List.map_append, List.map_map, hchars, List.map_id, List.map_cons, hlossy]
  rw [← List.singleton_append, ← List.append_assoc, String.ofList_append, String.ofList_append,
    String.ofList_toList]
  rfl

/-- **Bytes are a text, or they have a first fault.** It is reported with the number of bytes before
it, and it is replaced as a whole. -/
theorem exists_firstFault (h : ∀ t, bs ≠ bytes t) : ∃ s bad rest fault,
    FirstFault bs s bad rest ∧ decode bs = .error fault ∧
      (fault = .incomplete (bytes s).length ∧ rest = [] ∧ Begins bad ∨
        fault = .invalid bad.length (bytes s).length ∧ (rest = [] → ¬Begins bad)) ∧
      decodeLossy bs = s ++ "\ufffd" ++ decodeLossy rest := by
  rcases exists_first_not_char (segments bs) with ⟨cs, hcs⟩ | ⟨cs, g, ss, hss, hg⟩
  · rw [segments_eq_map_char_iff, ← String.toList_ofList (l := cs), ← bytes_eq] at hcs
    exact absurd hcs (h _)
  obtain ⟨bs', hbs, hbs'⟩ := exists_bytes_append hss
  obtain ⟨bad, rest, rfl, hstray, hrecorded, rfl⟩ := exists_stray hbs' hg
  rw [← String.toList_ofList (l := cs)] at hss
  have hfirst : FirstFault bs (String.ofList cs) bad rest :=
    ⟨hbs, hstray, fun t ↦ length_bytes_le hg hss⟩
  have hlossy := decodeLossy_of_segments hss hg
  rcases hrecorded with hbegins | hbegins
  · exact ⟨_, bad, [], _, hfirst, decode_of_segments hss fun _ ↦ rfl, .inl ⟨rfl, rfl, hbegins⟩,
      hlossy⟩
  · exact ⟨_, bad, rest, _, hfirst, decode_of_segments hss fun _ ↦ rfl, .inr ⟨rfl, hbegins⟩, hlossy⟩

end Utf8

end DeviceSnapshot
