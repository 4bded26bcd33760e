import DeviceSnapshot.Pattern.Search
import Mathlib.Tactic.Common

/-!
# Steps on sets of places

The search works on sets of places, while matches are a relation on single places. A step on sets
computes a relation if it takes every set to its image (`Places.Computes`). This file is about what
the steps of the search compute, and about how such steps are put together.

Repeating a step computes the powers of its relation. Both loops of the search stop early when a
round changes nothing, which is right because a set that a round does not change is not changed by
later rounds either. The closure of a set without a bound is run for as many rounds as there are
places. Each round adds a place or is the last one, so after these rounds nothing is left to add
(`Places.Computes.closed_close`).
-/

namespace DeviceSnapshot

namespace Places

variable {s t : Places} {i j k n : Nat} {text : List Char} {step : Places → Places}
  {R : Nat → Nat → Prop}

/-- The place is in the set. -/
def Has (s : Places) (i : Nat) : Prop := s[i]? = some true

theorem Has.lt_length (h : Has s i) : i < s.length := (List.getElem?_eq_some_iff.mp h).1

/-! ## Sets of places -/

theorem length_union (h : s.length = t.length) : (union s t).length = s.length := by
  rw [union, List.length_zipWith, h, Nat.min_self]

theorem has_union_iff (h : s.length = t.length) : Has (union s t) i ↔ Has s i ∨ Has t i := by
  rw [Has, union, List.getElem?_zipWith, Has, Has]
  by_cases hi : i < s.length
  · rw [List.getElem?_eq_getElem hi, List.getElem?_eq_getElem (h ▸ hi)]
    simp
  · have hs : s.length ≤ i := Nat.le_of_not_lt hi
    rw [List.getElem?_eq_none hs, List.getElem?_eq_none (h ▸ hs)]
    simp

theorem length_advance (cs : CharSet) (h : s.length = text.length + 1) :
    (advance cs text s).length = text.length + 1 := by
  rw [advance, List.length_cons, List.length_zipWith, h, Nat.min_eq_left (Nat.le_succ _)]

theorem has_advance_iff {cs : CharSet} : Has (advance cs text s) j ↔
    ∃ i c, Has s i ∧ text[i]? = some c ∧ cs.mem c = true ∧ j = i + 1 := by
  rcases j with _ | j
  · simp [Has, advance]
  · rw [Has, advance, List.getElem?_cons_succ, List.getElem?_zipWith]
    constructor
    · intro h
      rcases hc : text[j]? with _ | c
      · simp [hc] at h
      · rcases hs : s[j]? with _ | here
        · simp [hc, hs] at h
        · rw [hc, hs] at h
          obtain ⟨rfl, hmem⟩ := (Bool.and_eq_true _ _).mp (Option.some.inj h)
          exact ⟨j, c, hs, hc, hmem, rfl⟩
    · rintro ⟨i, c, hs, hc, hmem, hj⟩
      obtain rfl := Nat.succ.inj hj
      rw [hc, show s[j]? = some true from hs]
      simp [hmem]

@[simp] theorem length_surroundings (before : Option Char) (text : List Char) :
    (surroundings before text).length = text.length + 1 := by
  induction text generalizing before with
  | nil => rfl
  | cons c text ih => rw [surroundings, List.length_cons, ih, List.length_cons]

theorem getElem?_surroundings {before : Option Char} (h : i ≤ text.length) :
    (surroundings before text)[i]?
      = some (if i = 0 then before else Expr.before? text i, text[i]?) := by
  induction text generalizing before i with
  | nil =>
    obtain rfl := Nat.le_zero.mp h
    rfl
  | cons c text ih =>
    rcases i with _ | i
    · rfl
    · rw [surroundings, List.getElem?_cons_succ, ih (Nat.le_of_succ_le_succ h)]
      rcases i with _ | i <;> rfl

theorem length_filter (a : Assertion) (h : s.length = text.length + 1) :
    (filter a text s).length = text.length + 1 := by
  rw [filter, List.length_zipWith, length_surroundings, h, Nat.min_self]

theorem has_filter_iff {a : Assertion} (h : s.length = text.length + 1) :
    Has (filter a text s) i ↔ Has s i ∧ a.holds (Expr.before? text i) text[i]? = true := by
  by_cases hi : i ≤ text.length
  · have hbefore : (if i = 0 then none else Expr.before? text i) = Expr.before? text i := by
      rcases i with _ | i <;> rfl
    have hs : i < s.length := by rw [h]; exact Nat.lt_succ_of_le hi
    rw [Has, Has, filter, List.getElem?_zipWith, getElem?_surroundings hi, hbefore,
      List.getElem?_eq_getElem hs]
    simp
  · have hout : ∀ {t : Places}, t.length = text.length + 1 → ¬Has t i := by
      intro t ht hmem
      exact hi (Nat.le_of_lt_succ (ht ▸ hmem.lt_length :))
    exact iff_of_false (hout (length_filter a h)) fun hs ↦ hout h hs.1

/-! ## Steps that compute a relation -/

/-- On sets of a number of places, the step takes every set to its image under the relation. -/
structure Computes (n : Nat) (step : Places → Places) (R : Nat → Nat → Prop) : Prop where
  length : ∀ s : Places, s.length = n → (step s).length = n
  has_iff : ∀ s : Places, s.length = n → ∀ j, Has (step s) j ↔ ∃ i, Has s i ∧ R i j

/-- A number of steps in a relation, one after the other. -/
def Linked (R : Nat → Nat → Prop) : Nat → Nat → Nat → Prop
  | 0, i, j => i = j
  | n + 1, i, k => ∃ j, R i j ∧ Linked R n j k

theorem linked_add_iff {m : Nat} :
    Linked R (m + n) i k ↔ ∃ j, Linked R m i j ∧ Linked R n j k := by
  induction m generalizing i with
  | zero => simp [Linked]
  | succ m ih =>
    rw [Nat.succ_add, Linked]
    simp only [ih, Linked]
    constructor
    · rintro ⟨j, hj, j', hj', hk⟩
      exact ⟨j', ⟨j, hj, hj'⟩, hk⟩
    · rintro ⟨j', ⟨j, hj, hj'⟩, hk⟩
      exact ⟨j, hj, j', hj', hk⟩

theorem linked_then_iff {least : Nat} (P : Nat → Prop) :
    (∃ j, Linked R least i j ∧ ∃ m, P m ∧ Linked R m j k) ↔
      ∃ n, least ≤ n ∧ P (n - least) ∧ Linked R n i k := by
  constructor
  · rintro ⟨j, hj, m, hm, hk⟩
    exact ⟨least + m, Nat.le_add_right _ _, (Nat.add_sub_cancel_left least m).symm ▸ hm,
      linked_add_iff.mpr ⟨j, hj, hk⟩⟩
  · rintro ⟨n, hn, hm, hk⟩
    rw [← Nat.add_sub_cancel' hn] at hk
    obtain ⟨j, hj, hk⟩ := linked_add_iff.mp hk
    exact ⟨j, hj, n - least, hm, hk⟩

/-- No step in the relation leads out of the set. -/
def Closed (R : Nat → Nat → Prop) (s : Places) : Prop := ∀ i j, Has s i → R i j → Has s j

theorem Closed.has_of_linked (hs : Closed R s) (hi : Has s i) (h : Linked R n i j) : Has s j := by
  induction n generalizing i with
  | zero => exact h ▸ hi
  | succ n ih =>
    obtain ⟨k, hk, h⟩ := h
    exact ih (hs i k hi hk) h

/-- **Repetition a number of times.** -/
theorem Computes.iterate (h : Computes n step R) (m : Nat) :
    Computes n (Places.iterate step m) (Linked R m) := by
  constructor
  · intro s hs
    induction m generalizing s with
    | zero => exact hs
    | succ m ih =>
      rw [Places.iterate]
      split
      · exact hs
      · exact ih (step s) (h.length s hs)
  · intro s hs j
    induction m generalizing s with
    | zero => simp [Places.iterate, Linked]
    | succ m ih =>
      have hstep : (∃ i, Has s i ∧ Linked R (m + 1) i j) ↔
          ∃ i, Has (step s) i ∧ Linked R m i j := by
        simp only [h.has_iff s hs, Linked]
        constructor
        · rintro ⟨i, hi, k, hk, hj⟩
          exact ⟨k, ⟨i, hi, hk⟩, hj⟩
        · rintro ⟨k, ⟨i, hi, hk⟩, hj⟩
          exact ⟨i, hi, k, hk, hj⟩
      rw [hstep, Places.iterate, ← ih (step s) (h.length s hs)]
      split
      · next hfixed =>
        -- The set is its own image, and so are all images of it.
        have hall : ∀ m, Places.iterate step m s = s := by
          intro m
          cases m with
          | zero => rfl
          | succ m => rw [Places.iterate, hfixed]; exact if_pos rfl
        rw [hfixed, hall]
      · rfl

/-- What the closure of a set adds in a number of rounds. -/
theorem Computes.has_close_iff (h : Computes n step R) (hs : s.length = n) :
    Has (close step k s) j ↔ ∃ m ≤ k, ∃ i, Has s i ∧ Linked R m i j := by
  induction k generalizing s with
  | zero =>
    constructor
    · exact fun hj ↦ ⟨0, Nat.le_refl 0, j, hj, rfl⟩
    · rintro ⟨m, hm, i, hi, hij⟩
      obtain rfl := Nat.le_zero.mp hm
      exact hij ▸ hi
  | succ k ih =>
    have hlen : s.length = (step s).length := hs.trans (h.length s hs).symm
    rw [close]
    split
    · next hfixed =>
      constructor
      · exact fun hj ↦ ⟨0, Nat.zero_le _, j, hj, rfl⟩
      · rintro ⟨m, -, i, hi, hij⟩
        have hclosed : Closed R s := by
          intro i' j' hi' hij'
          rw [← hfixed, has_union_iff hlen]
          exact .inr ((h.has_iff s hs j').mpr ⟨i', hi', hij'⟩)
        exact hclosed.has_of_linked hi hij
    · rw [ih ((length_union hlen).trans hs)]
      constructor
      · rintro ⟨m, hm, i, hi, hij⟩
        rcases (has_union_iff hlen).mp hi with hi | hi
        · exact ⟨m, Nat.le_succ_of_le hm, i, hi, hij⟩
        · obtain ⟨i₀, hi₀, hstep⟩ := (h.has_iff s hs i).mp hi
          exact ⟨m + 1, Nat.succ_le_succ hm, i₀, hi₀, i, hstep, hij⟩
      · rintro ⟨m, hm, i, hi, hij⟩
        rcases m with _ | m
        · exact ⟨0, Nat.zero_le _, i, (has_union_iff hlen).mpr (.inl hi), hij⟩
        · obtain ⟨i₁, hstep, hij⟩ := hij
          exact ⟨m, Nat.le_of_succ_le_succ hm, i₁,
            (has_union_iff hlen).mpr (.inr ((h.has_iff s hs i₁).mpr ⟨i, hi, hstep⟩)), hij⟩

theorem count_lt_count_union (h : s.length = t.length) (hne : union s t ≠ s) :
    s.count true < (union s t).count true := by
  have hle : ∀ {s t : Places}, s.length = t.length → s.count true ≤ (union s t).count true := by
    intro s t h
    induction s generalizing t with
    | nil => exact Nat.zero_le _
    | cons x s ih =>
      obtain ⟨y, t, rfl⟩ := List.exists_cons_of_length_eq_add_one h.symm
      have htail := ih (Nat.succ.inj h)
      cases x <;> cases y <;> simp [union] at htail ⊢ <;> omega
  induction s generalizing t with
  | nil => exact absurd rfl hne
  | cons x s ih =>
    obtain ⟨y, t, rfl⟩ := List.exists_cons_of_length_eq_add_one h.symm
    have hcons : union (x :: s) (y :: t) = (x || y) :: union s t := rfl
    rw [hcons] at hne ⊢
    by_cases htail : union s t = s
    · have hxy : (x || y) ≠ x := fun hxy ↦ hne (by rw [hxy, htail])
      rw [htail]
      cases x <;> cases y <;> simp at hxy ⊢
    · have hlt := ih (Nat.succ.inj h) htail
      cases x <;> cases y <;> simp <;> omega

/-- **After as many rounds as there are places left, the closure is closed.** -/
theorem Computes.closed_close (h : Computes n step R) (hs : s.length = n)
    (hk : n ≤ k + s.count true) : Closed R (close step k s) := by
  induction k generalizing s with
  | zero =>
    -- All places are in the set.
    have hall : ∀ b ∈ s, true = b := List.count_eq_length.mp
      (Nat.le_antisymm List.count_le_length (by rwa [hs, ← Nat.zero_add (List.count true s)]))
    intro i j hi hij
    have hj : j < s.length := by
      rw [hs, ← h.length s hs]
      exact ((h.has_iff s hs j).mpr ⟨i, hi, hij⟩).lt_length
    rw [close, Has, List.getElem?_eq_getElem hj, ← hall _ (List.getElem_mem hj)]
  | succ k ih =>
    have hlen : s.length = (step s).length := hs.trans (h.length s hs).symm
    rw [close]
    split
    · next hfixed =>
      intro i j hi hij
      rw [← hfixed, has_union_iff hlen]
      exact .inr ((h.has_iff s hs j).mpr ⟨i, hi, hij⟩)
    · next hne =>
      have hlt := count_lt_count_union hlen hne
      exact ih ((length_union hlen).trans hs) (by omega)

theorem Computes.length_close (h : Computes n step R) (hs : s.length = n) :
    (close step k s).length = n := by
  induction k generalizing s with
  | zero => exact hs
  | succ k ih =>
    have hlen : s.length = (step s).length := hs.trans (h.length s hs).symm
    rw [close]
    split
    · exact hs
    · exact ih ((length_union hlen).trans hs)

/-- **Repetition up to a bound.** -/
theorem Computes.close (h : Computes n step R) (k : Nat) :
    Computes n (Places.close step k) fun i j ↦ ∃ m ≤ k, Linked R m i j where
  length _ hs := h.length_close hs
  has_iff s hs j := by
    rw [h.has_close_iff hs]
    constructor
    · rintro ⟨m, hm, i, hi, hij⟩
      exact ⟨i, hi, m, hm, hij⟩
    · rintro ⟨i, hi, m, hm, hij⟩
      exact ⟨m, hm, i, hi, hij⟩

/-- **Repetition without a bound.** -/
theorem Computes.close_all (h : Computes n step R) :
    Computes n (Places.close step n) fun i j ↦ ∃ m, Linked R m i j where
  length _ hs := h.length_close hs
  has_iff s hs j := by
    constructor
    · intro hj
      obtain ⟨m, -, i, hi, hij⟩ := (h.has_close_iff hs).mp hj
      exact ⟨i, hi, m, hij⟩
    · rintro ⟨i, hi, m, hij⟩
      have hstart : Has (Places.close step n s) i :=
        (h.has_close_iff hs).mpr ⟨0, Nat.zero_le _, i, hi, rfl⟩
      exact (h.closed_close hs (Nat.le_add_right _ _)).has_of_linked hstart hij

theorem Computes.comp {step' : Places → Places} {R' : Nat → Nat → Prop}
    (h : Computes n step R) (h' : Computes n step' R') :
    Computes n (fun s ↦ step' (step s)) fun i k ↦ ∃ j, R i j ∧ R' j k where
  length s hs := h'.length _ (h.length s hs)
  has_iff s hs k := by
    simp only [h'.has_iff _ (h.length s hs), h.has_iff s hs]
    constructor
    · rintro ⟨j, ⟨i, hi, hij⟩, hjk⟩
      exact ⟨i, hi, j, hij, hjk⟩
    · rintro ⟨i, hi, j, hij, hjk⟩
      exact ⟨j, ⟨i, hi, hij⟩, hjk⟩

theorem Computes.union {step' : Places → Places} {R' : Nat → Nat → Prop}
    (h : Computes n step R) (h' : Computes n step' R') :
    Computes n (fun s ↦ (step s).union (step' s)) fun i j ↦ R i j ∨ R' i j where
  length s hs := by rw [length_union ((h.length s hs).trans (h'.length s hs).symm), h.length s hs]
  has_iff s hs j := by
    rw [has_union_iff ((h.length s hs).trans (h'.length s hs).symm), h.has_iff s hs,
      h'.has_iff s hs, ← exists_or]
    exact exists_congr fun i ↦ and_or_left.symm

theorem Computes.congr {R' : Nat → Nat → Prop} (h : Computes n step R)
    (hR : ∀ i < n, ∀ j, R i j ↔ R' i j) : Computes n step R' where
  length := h.length
  has_iff s hs j := by
    rw [h.has_iff s hs]
    refine exists_congr fun i ↦ and_congr_right fun hi ↦ ?_
    exact hR i (hs ▸ hi.lt_length) j

end Places

end DeviceSnapshot
