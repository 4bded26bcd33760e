import DeviceSnapshot.Keyed
import Mathlib.Tactic.Common

/-!
# Keyed lists as finite maps

A keyed list in key order is determined by what it holds under each key. So an equation between two
of them is proved key by key, and the place of an entry in the list never enters an argument. What
an insertion does to single entries is stated as membership, since that is the form in which a
property of all entries is carried through it.
-/

namespace DeviceSnapshot

namespace Keyed

variable {α : Type}

/-! ## Looking up and membership -/

theorem mem_of_get? {m : Keyed α} {k : String} {v : α} (h : get? m k = some v) : (k, v) ∈ m := by
  induction m with
  | nil => simp at h
  | cons e m ih =>
    obtain ⟨k', v'⟩ := e
    rw [get?] at h
    split at h
    · next hk =>
      rw [hk, Option.some.inj h]
      exact List.mem_cons_self
    · exact List.mem_cons_of_mem _ (ih h)

theorem mem_keys_of_mem {m : Keyed α} {k : String} {v : α} (h : (k, v) ∈ m) : k ∈ keys m :=
  List.mem_map.mpr ⟨(k, v), h, rfl⟩

theorem mem_keys_iff {m : Keyed α} {k : String} : k ∈ keys m ↔ ∃ v, get? m k = some v := by
  rw [← Option.ne_none_iff_exists', ne_eq, get?_eq_none_iff, not_not]

theorem mem_keys_reverse {m : Keyed α} {k : String} : k ∈ keys m.reverse ↔ k ∈ keys m := by
  rw [keys, List.map_reverse, List.mem_reverse, keys]

theorem get?_of_mem_of_nodup {m : Keyed α} (hm : (keys m).Nodup) {k : String} {v : α}
    (h : (k, v) ∈ m) : get? m k = some v := by
  induction m with
  | nil => simp at h
  | cons e m ih =>
    obtain ⟨k', v'⟩ := e
    obtain ⟨hnot, hm⟩ := List.nodup_cons.mp hm
    rcases List.mem_cons.mp h with heq | h
    · obtain ⟨rfl, rfl⟩ := Prod.mk.inj heq
      rw [get?, if_pos rfl]
    · have hne : k' ≠ k := by
        rintro rfl
        exact hnot (mem_keys_of_mem h)
      rw [get?, if_neg hne, ih hm h]

theorem Ordered.nodup {m : Keyed α} (hm : m.Ordered) : (keys m).Nodup := hm.imp String.ne_of_lt

theorem get?_of_mem {m : Keyed α} (hm : m.Ordered) {k : String} {v : α} (h : (k, v) ∈ m) :
    get? m k = some v := get?_of_mem_of_nodup hm.nodup h

theorem mem_iff_get? {m : Keyed α} (hm : m.Ordered) {k : String} {v : α} :
    (k, v) ∈ m ↔ get? m k = some v := ⟨get?_of_mem hm, mem_of_get?⟩

theorem get?_eq_of_perm {m m' : Keyed α} (hperm : m.Perm m') (hm : (keys m).Nodup) (k : String) :
    get? m k = get? m' k := by
  have hm' : (keys m').Nodup := (hperm.map Prod.fst).nodup_iff.mp hm
  refine Option.ext fun v ↦ ⟨fun h ↦ ?_, fun h ↦ ?_⟩
  · exact get?_of_mem_of_nodup hm' (hperm.mem_iff.mp (mem_of_get? h))
  · exact get?_of_mem_of_nodup hm (hperm.mem_iff.mpr (mem_of_get? h))

theorem get?_map {β : Type} (f : α → β) (m : Keyed α) (k : String) :
    get? (m.map fun e ↦ (e.1, f e.2)) k = (get? m k).map f := by
  induction m with
  | nil => rfl
  | cons e m ih =>
    rw [List.map_cons, get?, get?, ih]
    split <;> rfl

theorem get?_append (m m' : Keyed α) (k : String) :
    get? (m ++ m') k = (get? m k).or (get? m' k) := by
  induction m with
  | nil => rfl
  | cons e m ih =>
    rw [List.cons_append, get?, get?, ih]
    split <;> rfl

/-- **Extensionality.** Two keyed lists in key order that hold the same under every key are the
same list. -/
theorem Ordered.ext {m m' : Keyed α} (hm : m.Ordered) (hm' : m'.Ordered)
    (h : ∀ k, get? m k = get? m' k) : m = m' := by
  induction m generalizing m' with
  | nil =>
    cases m' with
    | nil => rfl
    | cons e' m' => simpa [get?] using h e'.1
  | cons e m ih =>
    obtain ⟨k, v⟩ := e
    obtain ⟨hlt, hm⟩ := ordered_cons_iff.mp hm
    cases m' with
    | nil => simpa [get?] using h k
    | cons e' m' =>
      obtain ⟨k', v'⟩ := e'
      obtain ⟨hlt', hrest'⟩ := ordered_cons_iff.mp hm'
      -- Each of the two first keys occurs in the other list, so neither is below the other.
      have hmem : k ∈ keys ((k', v') :: m') := mem_keys_iff.mpr ⟨v, by rw [← h, get?, if_pos rfl]⟩
      have hmem' : k' ∈ keys ((k, v) :: m) := mem_keys_iff.mpr ⟨v', by rw [h, get?, if_pos rfl]⟩
      have hkk : k = k' := by
        rcases List.mem_cons.mp hmem with rfl | hmem
        · rfl
        · rcases List.mem_cons.mp hmem' with rfl | hmem'
          · rfl
          · exact absurd (hlt k' hmem') (String.lt_asymm (hlt' k hmem))
      subst hkk
      have hv : v = v' := by simpa [get?] using h k
      subst hv
      congr 1
      refine ih hm hrest' fun j ↦ ?_
      by_cases hj : k = j
      · subst hj
        rw [get?_eq_none_iff.mpr fun hj ↦ String.lt_irrefl _ (hlt k hj),
          get?_eq_none_iff.mpr fun hj ↦ String.lt_irrefl _ (hlt' k hj)]
      · simpa [get?, hj] using h j

/-! ## Insertion -/

theorem mem_of_mem_insert {m : Keyed α} {k : String} {v : α} {e : String × α}
    (h : e ∈ insert m k v) : e = (k, v) ∨ e ∈ m := by
  induction m with
  | nil => exact .inl (List.mem_singleton.mp h)
  | cons e' m ih =>
    obtain ⟨k', v'⟩ := e'
    rw [insert] at h
    split at h
    · rcases List.mem_cons.mp h with rfl | h
      · exact .inl rfl
      · exact .inr (List.mem_cons_of_mem _ h)
    · split at h
      · exact List.mem_cons.mp h
      · rcases List.mem_cons.mp h with rfl | h
        · exact .inr List.mem_cons_self
        · exact (ih h).imp_right (List.mem_cons_of_mem _)

theorem Ordered.insert_of_get? {m : Keyed α} (hm : m.Ordered) {k : String} {v : α}
    (h : get? m k = some v) : Keyed.insert m k v = m := by
  refine (hm.insert k v).ext hm fun j ↦ ?_
  by_cases hj : j = k
  · rw [hj, get?_insert_self, h]
  · rw [get?_insert_of_ne v hj]

@[simp] theorem insert_insert_self (m : Keyed α) (k : String) (v w : α) :
    insert (insert m k v) k w = insert m k w := by
  induction m with
  | nil => simp [insert]
  | cons e m ih =>
    obtain ⟨k', v'⟩ := e
    rw [insert, insert]
    split
    · rw [insert, if_pos rfl]
    · split
      · rw [insert, if_pos rfl]
      · next hne hlt => rw [insert, if_neg hne, if_neg hlt, ih]

/-- **Values written under different keys do not see each other,** whatever the list. -/
theorem insert_comm {k k' : String} (hne : k ≠ k') (m : Keyed α) (v w : α) :
    insert (insert m k v) k' w = insert (insert m k' w) k v := by
  wlog hlt : k < k' generalizing k k' v w
  · exact (this hne.symm w v (lt_of_ne_of_not_lt hne hlt)).symm
  have hnot : ¬k' < k := String.lt_asymm hlt
  induction m with
  | nil => simp [insert, hne, hne.symm, hlt, hnot]
  | cons e m ih =>
    obtain ⟨j, u⟩ := e
    by_cases hk : k = j
    · -- The smaller key is written over the first entry, which the greater key passes.
      subst hk
      simp [insert, hne.symm, hnot]
    · by_cases hlt₀ : k < j
      · by_cases hk' : k' = j
        · subst hk'
          simp [insert, hne, hne.symm, hlt, hnot]
        · by_cases hlt' : k' < j
          · simp [insert, hk, hlt₀, hk', hlt', hne, hne.symm, hlt, hnot]
          · simp [insert, hk, hlt₀, hk', hlt', hne.symm, hnot]
      · have hlt' : ¬k' < j := fun h ↦ hlt₀ (String.lt_trans hlt h)
        have hk' : k' ≠ j := by
          rintro rfl
          exact hlt₀ hlt
        simp [insert, hk, hlt₀, hk', hlt', ih]

theorem of_insert_eq_singleton {m : Keyed α} {k k' : String} {v w : α}
    (h : insert m k v = [(k', w)]) : k = k' ∧ v = w ∧ (m = [] ∨ ∃ u, m = [(k, u)]) := by
  cases m with
  | nil =>
    obtain ⟨hk, hv⟩ := Prod.mk.inj (List.singleton_inj.mp h)
    exact ⟨hk, hv, .inl rfl⟩
  | cons e m =>
    obtain ⟨k₀, v₀⟩ := e
    rw [insert] at h
    split at h
    · next hk =>
      obtain ⟨he, rfl⟩ := List.cons.inj h
      obtain ⟨hkk, hv⟩ := Prod.mk.inj he
      exact ⟨hkk, hv, .inr ⟨v₀, by rw [hk]⟩⟩
    · split at h
      · cases (List.cons.inj h).2
      · have hmem : k ∈ keys (insert m k v) := mem_keys_insert.mpr (.inl rfl)
        rw [(List.cons.inj h).2] at hmem
        cases hmem

theorem insert_eq_append {m : Keyed α} {k : String} (v : α) (h : ∀ k' ∈ keys m, k' < k) :
    insert m k v = m ++ [(k, v)] := by
  induction m with
  | nil => rfl
  | cons e m ih =>
    obtain ⟨k', v'⟩ := e
    have hk' : k' < k := h k' List.mem_cons_self
    rw [insert, if_neg (String.ne_of_lt hk').symm, if_neg (String.lt_asymm hk'),
      ih fun j hj ↦ h j (List.mem_cons_of_mem _ hj), List.cons_append]

theorem ordered_append_iff {m m' : Keyed α} :
    (m ++ m').Ordered ↔ m.Ordered ∧ m'.Ordered ∧ ∀ k ∈ keys m, ∀ k' ∈ keys m', k < k' := by
  rw [Ordered, keys, List.map_append, List.pairwise_append]
  rfl

theorem mem_left_of_lt {m m' : Keyed α} {k k' : String} {v v' : α}
    (h : (m ++ (k, v) :: m').Ordered) (hmem : (k', v') ∈ m ++ (k, v) :: m') (hlt : k' < k) :
    (k', v') ∈ m := by
  obtain ⟨-, hrest, -⟩ := ordered_append_iff.mp h
  rcases List.mem_append.mp hmem with hmem | hmem
  · exact hmem
  rcases List.mem_cons.mp hmem with heq | hmem
  · exact absurd (Prod.mk.inj heq).1 (String.ne_of_lt hlt)
  · have hgt : k < k' := (ordered_cons_iff.mp hrest).1 k' (mem_keys_of_mem hmem)
    exact absurd hgt (String.lt_asymm hlt)

theorem insertAll_eq_append {m : Keyed α} {entries : List (String × α)}
    (h : (m ++ entries).Ordered) : insertAll m entries = m ++ entries := by
  induction entries generalizing m with
  | nil => rw [insertAll, List.foldl_nil, List.append_nil]
  | cons e entries ih =>
    have hlast : ∀ k' ∈ keys m, k' < e.1 := fun k' hk' ↦
      (ordered_append_iff.mp h).2.2 k' hk' e.1 List.mem_cons_self
    have h : (m ++ [e] ++ entries).Ordered := by rwa [List.append_assoc, List.singleton_append]
    rw [insertAll, List.foldl_cons, insert_eq_append e.2 hlast, ← insertAll, ih h,
      List.append_assoc, List.singleton_append]

theorem Ordered.ofList_eq {m : Keyed α} (h : m.Ordered) : ofList m = m :=
  insertAll_eq_append (m := []) h

/-- Of the values inserted under a key the last one is found, and what was there before only if
there is none. -/
theorem get?_insertAll (m : Keyed α) (entries : List (String × α)) (k : String) :
    get? (insertAll m entries) k = (get? entries.reverse k).or (get? m k) := by
  induction entries generalizing m with
  | nil => rfl
  | cons e entries ih =>
    have hstep : insertAll m (e :: entries) = insertAll (insert m e.1 e.2) entries := rfl
    have hlast : get? [e] k = if e.1 = k then some e.2 else none := rfl
    rw [hstep, ih, List.reverse_cons, get?_append, hlast, Option.or_assoc]
    congr 1
    by_cases hk : e.1 = k
    · subst hk
      rw [get?_insert_self, if_pos rfl, Option.some_or]
    · rw [get?_insert_of_ne _ (Ne.symm hk), if_neg hk, Option.none_or]

/-- The value is the last one that the entries have under the key. -/
def LastUnder (entries : List (String × α)) (k : String) (v : α) : Prop :=
  ∃ before after, entries = before ++ (k, v) :: after ∧ k ∉ keys after

theorem lastUnder_iff {entries : List (String × α)} {k : String} {v : α} :
    LastUnder entries k v ↔ get? entries.reverse k = some v := by
  constructor
  · rintro ⟨before, after, rfl, hk⟩
    have hafter : get? after.reverse k = none := by rwa [get?_eq_none_iff, mem_keys_reverse]
    rw [List.reverse_append, List.reverse_cons, get?_append, get?_append, hafter, Option.none_or,
      get?, if_pos rfl, Option.some_or]
  · intro h
    induction entries with
    | nil => simp at h
    | cons e entries ih =>
      rw [List.reverse_cons, get?_append] at h
      by_cases hk : k ∈ keys entries
      · -- The last value under the key stands further behind.
        obtain ⟨w, hw⟩ : ∃ w, get? entries.reverse k = some w := by
          rwa [← mem_keys_iff, mem_keys_reverse]
        rw [hw, Option.some_or] at h
        obtain ⟨before, after, rfl, hafter⟩ := ih (hw.trans h)
        exact ⟨e :: before, after, rfl, hafter⟩
      · have hnone : get? entries.reverse k = none := by rwa [get?_eq_none_iff, mem_keys_reverse]
        rw [hnone, Option.none_or] at h
        obtain rfl := List.mem_singleton.mp (mem_of_get? h)
        exact ⟨[], entries, rfl, hk⟩

/-- **Only the last value under each key shows.** -/
theorem insertAll_eq_of_lastUnder {m : Keyed α} (hm : m.Ordered)
    {entries entries' : List (String × α)}
    (h : ∀ k v, LastUnder entries k v ↔ LastUnder entries' k v) :
    insertAll m entries = insertAll m entries' := by
  refine (hm.insertAll entries).ext (hm.insertAll entries') fun k ↦ ?_
  have hlast : get? entries.reverse k = get? entries'.reverse k := by
    refine Option.ext fun v ↦ ?_
    rw [← lastUnder_iff, ← lastUnder_iff, h]
  rw [get?_insertAll, get?_insertAll, hlast]

/-- **The order of insertion does not matter,** if no key is written twice. -/
theorem ofList_eq_of_perm {entries entries' : List (String × α)} (h : entries.Perm entries')
    (hnodup : (keys entries).Nodup) : ofList entries = ofList entries' := by
  refine (ordered_ofList entries).ext (ordered_ofList entries') fun k ↦ ?_
  have hreverse : entries.reverse.Perm entries'.reverse :=
    (entries.reverse_perm.trans h).trans entries'.reverse_perm.symm
  have hkeys : (keys entries.reverse).Nodup :=
    (entries.reverse_perm.map Prod.fst).nodup_iff.mpr hnodup
  rw [ofList, ofList, get?_insertAll, get?_insertAll, get?_eq_of_perm hreverse hkeys]

end Keyed

end DeviceSnapshot
