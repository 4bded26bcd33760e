import DeviceSnapshot.Proofs.Pattern.Places

/-!
# The search finds what matches

The search of an expression computes its matches (`Expr.ends_computes`). This is shown constructor
by constructor, and each constructor needs to be understood on the relation only: what it matches is
stated first, without reference to derivations. A repetition whose bounds contradict each other
matches nothing, yet the search would repeat it as often as the lower bound says, so such
repetitions are excluded.
-/

namespace DeviceSnapshot

namespace Expr

open Places

variable {text : List Char} {e f : Expr} {i j k n : Nat}

/-- Every repetition that has a bound allows the least number of times. -/
def Proper : Expr → Prop
  | .empty | .chars _ | .assert _ => True
  | .seq e f | .alt e f => Proper e ∧ Proper f
  | .group _ e => Proper e
  | .repeat e least most _ => Proper e ∧ ∀ m, most = some m → least ≤ m

theorem proper_chars {s : CharSet} : (chars s).Proper := trivial

theorem proper_assert {a : Assertion} : (assert a).Proper := trivial

theorem matches_empty_iff : Matches text .empty i j ↔ i ≤ text.length ∧ i = j := by
  constructor
  · intro h
    rcases h with ⟨hi⟩
    exact ⟨hi, rfl⟩
  · rintro ⟨hi, rfl⟩
    exact .empty hi

theorem matches_chars_iff {s : CharSet} :
    Matches text (.chars s) i j ↔ ∃ c, text[i]? = some c ∧ s.mem c = true ∧ j = i + 1 := by
  constructor
  · intro h
    rcases h with _ | ⟨hc, hmem⟩
    exact ⟨_, hc, hmem, rfl⟩
  · rintro ⟨c, hc, hmem, rfl⟩
    exact .chars hc hmem

theorem matches_assert_iff {a : Assertion} : Matches text (.assert a) i j ↔
    i ≤ text.length ∧ a.holds (before? text i) text[i]? = true ∧ i = j := by
  constructor
  · intro h
    rcases h with _ | _ | ⟨hi, ha⟩
    exact ⟨hi, ha, rfl⟩
  · rintro ⟨hi, ha, rfl⟩
    exact .assert hi ha

theorem matches_seq_iff :
    Matches text (.seq e f) i k ↔ ∃ j, Matches text e i j ∧ Matches text f j k := by
  constructor
  · intro h
    rcases h with _ | _ | _ | ⟨he, hf⟩
    exact ⟨_, he, hf⟩
  · rintro ⟨j, he, hf⟩
    exact .seq he hf

theorem matches_alt_iff :
    Matches text (.alt e f) i j ↔ Matches text e i j ∨ Matches text f i j := by
  constructor
  · intro h
    rcases h with _ | _ | _ | _ | he | hf
    · exact .inl he
    · exact .inr hf
  · rintro (he | hf)
    · exact .altLeft he
    · exact .altRight hf

theorem matches_group_iff {number : Option Nat} :
    Matches text (.group number e) i j ↔ Matches text e i j := by
  constructor
  · intro h
    rcases h with _ | _ | _ | _ | _ | _ | he
    exact he
  · exact .group

theorem Iterates.le_length_of
    (he : ∀ {i j : Nat}, Matches text e i j → i ≤ text.length ∧ j ≤ text.length)
    (h : Iterates text e n i j) : i ≤ text.length ∧ j ≤ text.length := by
  induction n generalizing i with
  | zero =>
    rcases h with ⟨hi⟩
    exact ⟨hi, hi⟩
  | succ n ih =>
    rcases h with _ | ⟨hfirst, hrest⟩
    exact ⟨(he hfirst).1, (ih hrest).2⟩

theorem Matches.le_length (h : Matches text e i j) : i ≤ text.length ∧ j ≤ text.length := by
  induction e generalizing i j with
  | empty =>
    obtain ⟨hi, rfl⟩ := matches_empty_iff.mp h
    exact ⟨hi, hi⟩
  | chars s =>
    obtain ⟨c, hc, -, rfl⟩ := matches_chars_iff.mp h
    have hi : i < text.length := (List.getElem?_eq_some_iff.mp hc).1
    exact ⟨Nat.le_of_lt hi, hi⟩
  | assert a =>
    obtain ⟨hi, -, rfl⟩ := matches_assert_iff.mp h
    exact ⟨hi, hi⟩
  | seq e f ihe ihf =>
    obtain ⟨k, he, hf⟩ := matches_seq_iff.mp h
    exact ⟨(ihe he).1, (ihf hf).2⟩
  | alt e f ihe ihf => exact (matches_alt_iff.mp h).elim ihe ihf
  | group number e ih => exact ih (matches_group_iff.mp h)
  | «repeat» e least most lazy ih =>
    rcases h with _ | _ | _ | _ | _ | _ | _ | ⟨h, -, -⟩
    exact h.le_length_of ih

theorem iterates_iff : Iterates text e n i j ↔ i ≤ text.length ∧ Linked (Matches text e) n i j := by
  induction n generalizing i with
  | zero =>
    constructor
    · rintro ⟨hi⟩
      exact ⟨hi, rfl⟩
    · rintro ⟨hi, rfl⟩
      exact .zero hi
  | succ n ih =>
    constructor
    · rintro (_ | ⟨he, h⟩)
      exact ⟨he.le_length.1, _, he, (ih.mp h).2⟩
    · rintro ⟨-, j, he, h⟩
      exact .succ he (ih.mpr ⟨he.le_length.2, h⟩)

theorem matches_repeat_iff {least : Nat} {most : Option Nat} {lazy : Bool} :
    Matches text (.repeat e least most lazy) i j ↔ i ≤ text.length ∧
      ∃ n, least ≤ n ∧ (∀ m, most = some m → n ≤ m) ∧ Linked (Matches text e) n i j := by
  constructor
  · intro h
    rcases h with _ | _ | _ | _ | _ | _ | _ | ⟨h, hleast, hmost⟩
    obtain ⟨hi, h⟩ := iterates_iff.mp h
    exact ⟨hi, _, hleast, hmost, h⟩
  · rintro ⟨hi, n, hleast, hmost, h⟩
    exact .repeat (iterates_iff.mpr ⟨hi, h⟩) hleast hmost

/-- **The search of an expression computes its matches.** -/
theorem ends_computes (he : e.Proper) :
    Computes (text.length + 1) (ends text e) (Matches text e) := by
  induction e with
  | empty =>
    refine ⟨fun s hs ↦ hs, fun s hs j ↦ ?_⟩
    simp only [matches_empty_iff]
    constructor
    · intro hj
      exact ⟨j, hj, Nat.le_of_lt_succ (hs ▸ hj.lt_length :), rfl⟩
    · rintro ⟨i, hi, -, rfl⟩
      exact hi
  | chars cs =>
    refine ⟨fun s hs ↦ length_advance cs hs, fun s hs j ↦ ?_⟩
    simp only [matches_chars_iff]
    rw [ends, has_advance_iff]
    constructor
    · rintro ⟨i, c, hi, h⟩
      exact ⟨i, hi, c, h⟩
    · rintro ⟨i, hi, c, h⟩
      exact ⟨i, c, hi, h⟩
  | assert a =>
    refine ⟨fun s hs ↦ length_filter a hs, fun s hs j ↦ ?_⟩
    simp only [matches_assert_iff]
    rw [ends, has_filter_iff hs]
    constructor
    · rintro ⟨hj, ha⟩
      exact ⟨j, hj, Nat.le_of_lt_succ (hs ▸ hj.lt_length :), ha, rfl⟩
    · rintro ⟨i, hi, -, ha, rfl⟩
      exact ⟨hi, ha⟩
  | seq e f ihe ihf =>
    refine ((ihe he.1).comp (ihf he.2)).congr fun i _ j ↦ ?_
    exact matches_seq_iff.symm
  | alt e f ihe ihf =>
    refine ((ihe he.1).union (ihf he.2)).congr fun i _ j ↦ ?_
    exact matches_alt_iff.symm
  | group number e ih => exact (ih he).congr fun i _ j ↦ matches_group_iff.symm
  | «repeat» e least most lazy ih =>
    have hstep := ih he.1
    rcases most with _ | m
    · refine ((hstep.iterate least).comp hstep.close_all).congr fun i hi j ↦ ?_
      rw [matches_repeat_iff]
      simpa [Nat.le_of_lt_succ hi] using linked_then_iff fun _ ↦ True
    · refine ((hstep.iterate least).comp (hstep.close (m - least))).congr fun i hi j ↦ ?_
      rw [matches_repeat_iff, linked_then_iff (· ≤ m - least)]
      simp [Nat.le_of_lt_succ hi, Nat.sub_le_sub_iff_right (he.2 m rfl)]

/-- **The search finds what matches.** -/
theorem occurs_iff (he : e.Proper) : e.occurs text = true ↔ Occurs e text := by
  have hlen : (List.replicate (text.length + 1) true).length = text.length + 1 :=
    List.length_replicate
  -- The search begins with all places.
  have hall : ∀ i ≤ text.length, Has (List.replicate (text.length + 1) true) i := by
    intro i hi
    rw [Has, List.getElem?_replicate, if_pos (Nat.lt_succ_of_le hi)]
  have hany : e.occurs text = true ↔
      ∃ j, Has (ends text e (List.replicate (text.length + 1) true)) j := by
    simp [occurs, Has, ← List.mem_iff_getElem?]
  rw [hany, Occurs, exists_comm]
  refine exists_congr fun j ↦ ?_
  rw [(ends_computes he).has_iff _ hlen]
  exact exists_congr fun i ↦ ⟨fun h ↦ h.2, fun h ↦ ⟨hall i h.le_length.1, h⟩⟩

end Expr

end DeviceSnapshot
