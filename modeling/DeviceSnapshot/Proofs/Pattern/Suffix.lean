import DeviceSnapshot.Proofs.Pattern.Reading

/-!
# Patterns for the end of a text

Many patterns describe how a text ends: fixed texts and runs of characters of one kind, in a row, up
to the end of the text. Such a pattern is a list of parts (`Expr.endsWith`), and what it matches is
what its parts spell one after the other (`Expr.occurs_endsWith_iff`). Nothing is said about where a
match starts, so anything may come before it.
-/

namespace DeviceSnapshot

open Places

/-- A part of a pattern for the end of a text. -/
inductive Part where
  /-- The text. -/
  | text (s : String)
  /-- One or more characters of a set. -/
  | run (s : CharSet)

/-- The part and then an expression. -/
def Part.before (e : Expr) : Part → Expr
  | .text s => s.toList.foldr (fun c f ↦ .seq (.chars (.single c)) f) e
  | .run s => .seq (.repeat (.chars s) 1 none false) e

/-- The parts in order, up to the end of the text. -/
def Expr.endsWith (ps : List Part) : Expr := ps.foldr (fun p e ↦ p.before e) (.assert .endText)

/-- What a part stands for. -/
def Part.Reads : Part → String → Prop
  | .text s, word => word = s
  | .run s, word => word ≠ "" ∧ ∀ c ∈ word.toList, s.mem c = true

/-- What parts stand for one after the other. -/
def Spells : List Part → String → Prop
  | [], word => word = ""
  | p :: ps, word => ∃ first rest, word = first ++ rest ∧ p.Reads first ∧ Spells ps rest

theorem spells_text_iff {s : String} {ps : List Part} {word : String} :
    Spells (.text s :: ps) word ↔ ∃ rest, word = s ++ rest ∧ Spells ps rest := by
  simp [Spells, Part.Reads]

theorem spells_run_iff {s : CharSet} {ps : List Part} {word : String} :
    Spells (.run s :: ps) word ↔ ∃ first rest, word = first ++ rest ∧
      (first ≠ "" ∧ ∀ c ∈ first.toList, s.mem c = true) ∧ Spells ps rest := Iff.rfl

theorem spells_nil_iff {word : String} : Spells [] word ↔ word = "" := Iff.rfl

namespace Expr

variable {text : List Char} {e : Expr} {i j k n : Nat} {c : Char} {cs : List Char} {s : CharSet}

/-! ## Stretches -/

/-- The characters between two places. -/
def Stretch (text : List Char) (i j : Nat) (cs : List Char) : Prop :=
  j = i + cs.length ∧ text.drop i = cs ++ text.drop j

theorem stretch_nil_iff : Stretch text i j [] ↔ i = j := by
  constructor
  · exact fun h ↦ h.1.symm
  · rintro rfl
    exact ⟨rfl, rfl⟩

theorem stretch_cons_iff :
    Stretch text i j (c :: cs) ↔ text[i]? = some c ∧ Stretch text (i + 1) j cs := by
  have hlen : i + (c :: cs).length = i + 1 + cs.length := by simp; omega
  rw [Stretch, Stretch, hlen]
  by_cases hi : i < text.length
  · rw [List.drop_eq_getElem_cons hi, List.getElem?_eq_getElem hi, List.cons_append,
      List.cons.injEq, Option.some.injEq]
    exact and_left_comm
  · rw [List.drop_eq_nil_of_le (Nat.le_of_not_lt hi), List.getElem?_eq_none (Nat.le_of_not_lt hi)]
    simp

theorem Stretch.le (h : Stretch text i j cs) : i ≤ j := h.1 ▸ Nat.le_add_right _ _

theorem Stretch.le_length (h : Stretch text i j cs) (hi : i ≤ text.length) : j ≤ text.length := by
  have hlen := congrArg List.length h.2
  rw [List.length_drop, List.length_append, List.length_drop] at hlen
  have hj := h.1
  omega

/-- A word at the start of what comes after a place, and the place after the word. -/
theorem exists_stretch_iff {word : String} {P : String → Prop} :
    (∃ j, Stretch text i j word.toList ∧ P (String.ofList (text.drop j))) ↔
      ∃ rest, String.ofList (text.drop i) = word ++ rest ∧ P rest := by
  constructor
  · rintro ⟨j, ⟨-, hdrop⟩, hP⟩
    refine ⟨String.ofList (text.drop j), ?_, hP⟩
    rw [hdrop, String.ofList_append, String.ofList_toList]
  · rintro ⟨rest, hdrop, hP⟩
    have hword : text.drop i = word.toList ++ rest.toList := by
      rw [← String.toList_append, ← hdrop, String.toList_ofList]
    have hrest : text.drop (i + word.toList.length) = rest.toList := by
      rw [← List.drop_drop, hword, List.drop_left]
    refine ⟨i + word.toList.length, ⟨rfl, by rw [hrest, hword]⟩, ?_⟩
    rwa [hrest, String.ofList_toList]

/-! ## Parts -/

theorem linked_chars_iff : Linked (Matches text (.chars s)) n i j ↔
    ∃ cs, cs.length = n ∧ (∀ c ∈ cs, s.mem c = true) ∧ Stretch text i j cs := by
  induction n generalizing i with
  | zero =>
    constructor
    · rintro rfl
      exact ⟨[], rfl, by simp, stretch_nil_iff.mpr rfl⟩
    · rintro ⟨cs, hlen, -, h⟩
      obtain rfl := List.length_eq_zero_iff.mp hlen
      exact stretch_nil_iff.mp h
  | succ n ih =>
    simp only [Linked, matches_chars_iff, ih]
    constructor
    · rintro ⟨_, ⟨c, hc, hmem, rfl⟩, cs, rfl, hcs, h⟩
      exact ⟨c :: cs, rfl, List.forall_mem_cons.mpr ⟨hmem, hcs⟩, stretch_cons_iff.mpr ⟨hc, h⟩⟩
    · rintro ⟨cs, hlen, hcs, h⟩
      obtain ⟨c, cs, rfl⟩ := List.exists_cons_of_length_eq_add_one hlen
      obtain ⟨hc, h⟩ := stretch_cons_iff.mp h
      obtain ⟨hmem, hcs⟩ := List.forall_mem_cons.mp hcs
      exact ⟨i + 1, ⟨c, hc, hmem, rfl⟩, cs, Nat.succ.inj hlen, hcs, h⟩

theorem matches_text_iff : Matches text (cs.foldr (fun c f ↦ .seq (.chars (.single c)) f) e) i k ↔
    ∃ j, Stretch text i j cs ∧ Matches text e j k := by
  induction cs generalizing i with
  | nil => simp [stretch_nil_iff]
  | cons c cs ih =>
    rw [List.foldr_cons, matches_seq_iff]
    simp only [matches_chars_iff, CharSet.mem_single_iff, ih, stretch_cons_iff]
    constructor
    · rintro ⟨_, ⟨_, hc, rfl, rfl⟩, j, h, he⟩
      exact ⟨j, ⟨hc, h⟩, he⟩
    · rintro ⟨j, ⟨hc, h⟩, he⟩
      exact ⟨i + 1, ⟨c, hc, rfl, rfl⟩, j, h, he⟩

theorem matches_before_iff (p : Part) : Matches text (p.before e) i k ↔
    ∃ word, p.Reads word ∧ ∃ j, Stretch text i j word.toList ∧ Matches text e j k := by
  rcases p with s | s
  · rw [Part.before, matches_text_iff]
    simp [Part.Reads]
  · rw [Part.before, matches_seq_iff]
    simp only [matches_repeat_iff, linked_chars_iff, Part.Reads]
    constructor
    · rintro ⟨j, ⟨-, n, hn, -, cs, rfl, hcs, h⟩, he⟩
      have hne : cs ≠ [] := List.ne_nil_of_length_pos hn
      exact ⟨String.ofList cs, ⟨by simpa using hne, by simpa using hcs⟩, j, by simpa using h, he⟩
    · rintro ⟨word, ⟨hne, hword⟩, j, h, he⟩
      have hi : i ≤ text.length := Nat.le_trans h.le he.le_length.1
      have hlen : 1 ≤ word.toList.length := List.length_pos_iff.mpr (by simpa using hne)
      exact ⟨j, ⟨hi, _, hlen, by simp, word.toList, rfl, hword, h⟩, he⟩

/-- **What a pattern for the end of a text matches.** -/
theorem matches_endsWith_iff {ps : List Part} : Matches text (endsWith ps) i k ↔
    i ≤ text.length ∧ k = text.length ∧ Spells ps (String.ofList (text.drop i)) := by
  induction ps generalizing i with
  | nil =>
    rw [endsWith, List.foldr_nil, matches_assert_iff]
    simp only [Assertion.holds, Option.isNone_iff_eq_none, List.getElem?_eq_none_iff, Spells,
      String.ofList_eq_empty_iff, List.drop_eq_nil_iff]
    omega
  | cons p ps ih =>
    rw [endsWith, List.foldr_cons, ← endsWith, matches_before_iff]
    simp only [ih, Spells]
    constructor
    · rintro ⟨word, hword, j, h, hj, hk, hps⟩
      obtain ⟨rest, hdrop, hps⟩ := exists_stretch_iff.mp ⟨j, h, hps⟩
      exact ⟨Nat.le_trans h.le hj, hk, word, rest, hdrop, hword, hps⟩
    · rintro ⟨hi, hk, word, rest, hdrop, hword, hps⟩
      obtain ⟨j, h, hps⟩ := exists_stretch_iff.mpr ⟨rest, hdrop, hps⟩
      exact ⟨word, hword, j, h, h.le_length hi, hk, hps⟩

/-- **A text matches a pattern for its end if it ends with what the parts spell.** -/
theorem occurs_endsWith_iff {ps : List Part} {key : String} :
    Occurs (endsWith ps) key.toList ↔ ∃ before rest, key = before ++ rest ∧ Spells ps rest := by
  simp only [Occurs, matches_endsWith_iff]
  constructor
  · rintro ⟨i, -, -, -, h⟩
    refine ⟨String.ofList (key.toList.take i), _, ?_, h⟩
    rw [← String.ofList_append, List.take_append_drop, String.ofList_toList]
  · rintro ⟨before, rest, rfl, h⟩
    refine ⟨before.toList.length, _, by simp, rfl, ?_⟩
    rwa [String.toList_append, List.drop_left, String.ofList_toList]

end Expr

end DeviceSnapshot
