import DeviceSnapshot.Proofs.Entry.Form

/-!
# Entries that a rule leaves alone

After the actions of a rule have run, the last action on each field finds the value that it has
written itself; such a container is called settled. Running the actions again gives the same
container, although single actions in between may change it: of two actions on one field the first
writes its own text for a moment, until the second writes its text back.

An earlier action on a field may do no harm for two reasons only. It does not fail, and it leaves
the form of the value as it is, by which the last action on the field decides how to write. Both
hold of an action that writes a text. A list of paths is different, since the paths that one action
writes may be matched by another; so a rule may have one such action (`applyAllTo_applyAllTo`).
-/

namespace DeviceSnapshot

/-- The three field names differ from each other. -/
def FieldNames.Distinct (fields : FieldNames) : Prop :=
  [fields.paths, fields.devpath, fields.dmUuid].Nodup

instance (fields : FieldNames) : Decidable fields.Distinct :=
  inferInstanceAs (Decidable (List.Nodup _))

theorem FieldNames.distinct_iff {fields : FieldNames} : fields.Distinct ↔
    fields.paths ≠ fields.devpath ∧ fields.paths ≠ fields.dmUuid ∧
      fields.devpath ≠ fields.dmUuid := by
  simp [Distinct, and_assoc]

namespace Action

variable {layout : Layout} {c c' : Container}

/-- The substitutions of an action on paths. -/
def subs? : Action → Option (List Substitution)
  | .paths subs => some subs
  | .devpath _ | .dmUuid _ => none

theorem eq_paths_of_subs?_eq_some {a : Action} {subs : List Substitution}
    (h : a.subs? = some subs) : a = .paths subs := by
  cases a with
  | paths subs' => rw [Option.some.inj h]
  | devpath s => cases h
  | dmUuid s => cases h

theorem exists_text_of_subs?_eq_none (layout : Layout) {a : Action} (h : a.subs? = none) :
    ∃ s, ∀ x, a.newValue layout x = .ok (layout.stringLike x s) := by
  cases a with
  | paths subs => cases h
  | devpath s => exact ⟨s, fun _ ↦ rfl⟩
  | dmUuid s => exact ⟨s, fun _ ↦ rfl⟩

theorem subs?_eq_none_of_target_eq {fields : FieldNames} (hf : fields.Distinct) {a b : Action}
    (hab : a.target fields = b.target fields) (ha : a.subs? = none) : b.subs? = none := by
  obtain ⟨hdevpath, hdmUuid, -⟩ := FieldNames.distinct_iff.mp hf
  cases b with
  | paths subs =>
    cases a with
    | paths subs' => cases ha
    | devpath s => exact absurd hab.symm hdevpath
    | dmUuid s => exact absurd hab.symm hdmUuid
  | devpath s => rfl
  | dmUuid s => rfl

/-! ## The run of the actions -/

theorem ordered_of_applyAllTo {as : List Action} (hc : c.Ordered)
    (h : applyAllTo layout as c = .ok c') : c'.Ordered := by
  induction as generalizing c with
  | nil => exact Except.ok.inj h ▸ hc
  | cons a as ih =>
    obtain ⟨d, hd, h⟩ := applyAllTo_cons_eq_ok_iff.mp h
    exact ih (ordered_of_applyTo hc hd) h

theorem get?_applyAllTo_of_not_mem {as : List Action} {field : String}
    (h : applyAllTo layout as c = .ok c') (hfield : field ∉ targets layout as) :
    c'.get? field = c.get? field := by
  induction as generalizing c with
  | nil => rw [Except.ok.inj h]
  | cons a as ih =>
    obtain ⟨d, hd, h⟩ := applyAllTo_cons_eq_ok_iff.mp h
    have hne : field ≠ a.target layout.fields := fun heq ↦
      hfield (mem_targets_iff.mpr ⟨a, List.mem_cons_self, heq.symm⟩)
    have hrest : field ∉ targets layout as := by
      intro hmem
      obtain ⟨b, hb, hbt⟩ := mem_targets_iff.mp hmem
      exact hfield (mem_targets_iff.mpr ⟨b, List.mem_cons_of_mem _ hb, hbt⟩)
    rw [ih h hrest, get?_applyTo_of_ne hd hne]

/-! ## Settled containers -/

/-- The last action on each field finds the value that it would write. -/
def Settled (layout : Layout) : List Action → Container → Prop
  | [], _ => True
  | a :: as, c =>
    (a.target layout.fields ∉ targets layout as → ∃ v,
      c.get? (a.target layout.fields) = .ok (some v) ∧ a.newValue layout (some v) = .ok v) ∧
    Settled layout as c

theorem settled_of_applyAllTo {as : List Action} (has : ∀ a ∈ as, a.LeavesReplacements)
    (h : applyAllTo layout as c = .ok c') : Settled layout as c' := by
  induction as generalizing c with
  | nil => trivial
  | cons a as ih =>
    obtain ⟨d, hd, h⟩ := applyAllTo_cons_eq_ok_iff.mp h
    refine ⟨fun hlast ↦ ?_, ih (fun b hb ↦ has b (List.mem_cons_of_mem _ hb)) h⟩
    obtain ⟨x, v, -, hv, hup⟩ := applyTo_eq_ok_iff.mp hd
    -- The actions that follow are on other fields, so what this one wrote is still there.
    refine ⟨v, ?_, newValue_newValue (has a List.mem_cons_self) hv⟩
    rw [get?_applyAllTo_of_not_mem h hlast, Container.get?_upsert_self hup]

theorem Settled.exists_get? {as : List Action} (h : Settled layout as c) {field : String}
    (hfield : field ∈ targets layout as) : ∃ v, c.get? field = .ok (some v) := by
  induction as with
  | nil => exact absurd hfield (Finset.notMem_empty field)
  | cons a as ih =>
    by_cases hrest : field ∈ targets layout as
    · exact ih h.2 hrest
    · obtain ⟨b, hb, hbt⟩ := mem_targets_iff.mp hfield
      rcases List.mem_cons.mp hb with rfl | hb
      · obtain ⟨v, hv, -⟩ := h.1 (hbt ▸ hrest)
        exact ⟨v, hbt ▸ hv⟩
      · exact absurd (mem_targets_iff.mpr ⟨b, hb, hbt⟩) hrest

/-- **Settled containers are fixed points.** -/
theorem Settled.applyAllTo_eq {as : List Action} (hf : layout.fields.Distinct)
    (hpaths : (as.filterMap subs?).length ≤ 1) (hc : c.Ordered) (h : Settled layout as c) :
    applyAllTo layout as c = .ok c := by
  induction as with
  | nil => rfl
  | cons a as ih =>
    have hpaths' : (as.filterMap subs?).length ≤ 1 := by
      refine le_trans ?_ hpaths
      exact ((List.sublist_cons_self a as).filterMap subs?).length_le
    rw [applyAllTo_cons]
    by_cases hlast : a.target layout.fields ∈ targets layout as
    · obtain ⟨v, hv⟩ := h.2.exists_get? hlast
      obtain ⟨b, hb, hbt⟩ := mem_targets_iff.mp hlast
      -- A second action on paths is excluded, so the actions on this field write texts.
      have ha : a.subs? = none := by
        cases ha : a.subs? with
        | none => rfl
        | some subs =>
          rw [List.filterMap_cons, ha, List.length_cons] at hpaths
          have hnil := List.length_eq_zero_iff.mp (Nat.le_zero.mp (Nat.le_of_succ_le_succ hpaths))
          have hbnone : b.subs? = none := List.filterMap_eq_nil_iff.mp hnil b hb
          rw [subs?_eq_none_of_target_eq hf hbt hbnone] at ha
          cases ha
      obtain ⟨s, hs⟩ := exists_text_of_subs?_eq_none layout ha
      obtain ⟨d, hd⟩ := Container.upsert_of_get?_ok hv (layout.stringLike (some v) s)
      have happly : a.applyTo layout c = .ok d :=
        applyTo_eq_ok_iff.mpr ⟨some v, _, hv, hs (some v), hd⟩
      rw [happly]
      -- The next action on the field overwrites the text, and sees only its form.
      refine (applyAllTo_of_upsert hlast hc hv hd fun b' hb' ↦ ?_).trans (ih hpaths' h.2)
      have hbt' : b'.target layout.fields = a.target layout.fields := by
        simpa using List.find?_some hb'
      obtain ⟨s', hs'⟩ := exists_text_of_subs?_eq_none layout
        (subs?_eq_none_of_target_eq hf hbt'.symm ha)
      rw [hs', hs', Layout.stringLike_eq_of_wraps (Layout.wraps_stringLike layout (some v) s)]
    · obtain ⟨v, hv, hnew⟩ := h.1 hlast
      have happly : a.applyTo layout c = .ok c :=
        applyTo_eq_ok_iff.mpr ⟨some v, v, hv, hnew, Container.upsert_of_get?_some hc hv⟩
      rw [happly]
      exact ih hpaths' h.2

/-- **The actions of a rule change nothing the second time.** -/
theorem applyAllTo_applyAllTo {as : List Action} (hf : layout.fields.Distinct)
    (hpaths : (as.filterMap subs?).length ≤ 1) (has : ∀ a ∈ as, a.LeavesReplacements)
    (hc : c.Ordered) (h : applyAllTo layout as c = .ok c') :
    applyAllTo layout as c' = .ok c' :=
  (settled_of_applyAllTo has h).applyAllTo_eq hf hpaths (ordered_of_applyAllTo hc h)

theorem applyAll_applyAll {as : List Action} (hf : layout.fields.Distinct)
    (hpaths : (as.filterMap subs?).length ≤ 1) (has : ∀ a ∈ as, a.LeavesReplacements)
    {entry entry' : Json} (hentry : entry.Ordered) (h : applyAll layout as entry = .ok entry') :
    applyAll layout as entry' = .ok entry' := by
  rcases of_applyAll_eq_ok h with ⟨rfl, rfl⟩ | ⟨c, c', hcon, hc, rfl⟩
  · rfl
  · have hreads : layout.Reads c' := (Layout.reads_of_container hcon).applyAllTo hc
    have hord : c.Ordered := Layout.ordered_of_container hentry hcon
    rw [applyAll_eq hreads, applyAllTo_applyAllTo hf hpaths has hord hc]
    rfl

end Action

end DeviceSnapshot
