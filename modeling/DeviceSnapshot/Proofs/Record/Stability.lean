import DeviceSnapshot.Proofs.Entry.Settled
import DeviceSnapshot.Proofs.Record.Collision
import DeviceSnapshot.Proofs.Table.Dispatch

/-!
# Tables that are stable

The output of a run is itself a record, and a run over it should change nothing. That takes some
care in the table: a canonical key may belong to a rule again, and then it had better be the rule
that the key was made by. Together with what makes a single rule stable this is all that is needed
(`applyRules_applyRules`); no two keys of an output can fall together the second time, since all of
them are their own targets. Both built-in tables are stable.
-/

namespace DeviceSnapshot

/-- What makes the runs of a table stable. -/
structure Table.Stable (t : Table) : Prop where
  fields : t.layout.fields.Distinct
  /-- No rule matches the canonical key of a rule, or that rule is the first to match it. -/
  keys : ∀ rule ∈ t.rules,
    t.rule? rule.canonicalKey = none ∨ t.rule? rule.canonicalKey = some rule
  paths : ∀ rule ∈ t.rules, (rule.actions.filterMap Action.subs?).length ≤ 1
  replacements : ∀ rule ∈ t.rules, ∀ a ∈ rule.actions, a.LeavesReplacements

private theorem Table.mem_of_rule? {t : Table} {key : String} {rule : Rule}
    (h : t.rule? key = some rule) : rule ∈ t.rules := List.mem_of_find?_eq_some h

/-- The built-in tables compile and are stable. -/
theorem Builtin.exists_stable (b : Builtin) : ∃ t, b.table = .ok t ∧ t.Stable := by
  obtain ⟨t, htable, hfields, hactions⟩ := exists_table_of
    (P := fun t ↦ t.layout.fields.Distinct ∧ ∀ rule ∈ t.rules,
      (rule.actions.filterMap Action.subs?).length ≤ 1 ∧ ∀ a ∈ rule.actions, a.LeavesReplacements)
    b (by rcases b <;> decide +kernel)
  exact ⟨t, htable, hfields, fun _ ↦ rule?_canonicalKey htable,
    fun rule hrule ↦ (hactions rule hrule).1, fun rule hrule ↦ (hactions rule hrule).2⟩

namespace Record

variable {t : Table}

theorem applyRules_of_forall_fixed {o : Record} (ho : o.Ordered)
    (h : ∀ e ∈ o, t.target e.1 = e.1 ∧ t.outcome e.1 e.2 = .ok e.2) :
    (applyRules t o).1 = .ok o := by
  have htarget : ∀ k ∈ o.keys, t.target k = k := by
    intro k hk
    obtain ⟨e, he, rfl⟩ := List.mem_map.mp hk
    exact (h e he).1
  -- No two keys fall together, since each is its own target.
  have hinj : Set.InjOn t.target {k | k ∈ o.keys} := by
    intro k hk k' hk' heq
    rwa [htarget k hk, htarget k' hk'] at heq
  refine (applyRules_eq_ok_iff ho hinj).mpr ⟨fun e he ↦ ⟨e.2, (h e he).2⟩, ho, fun c v ↦ ?_⟩
  rw [← Keyed.mem_iff_get? ho]
  constructor
  · intro he
    exact ⟨(c, v), he, h _ he⟩
  · rintro ⟨e, he, hc, hv⟩
    rw [(h e he).2] at hv
    rw [(h e he).1] at hc
    rw [← hc, ← Except.ok.inj hv]
    exact he

/-- In a stable table, what becomes of an entry stays as it is under the key where it is stored. -/
theorem outcome_target (ht : t.Stable) {key : String} {entry v : Json} (hentry : entry.Ordered)
    (hv : t.outcome key entry = .ok v) :
    t.target (t.target key) = t.target key ∧ t.outcome (t.target key) v = .ok v := by
  cases hrule : t.rule? key with
  | none =>
    rw [Table.outcome_of_rule?_none hrule] at hv
    rw [Table.target_of_rule?_none hrule, Table.target_of_rule?_none hrule,
      Table.outcome_of_rule?_none hrule]
    exact ⟨rfl, rfl⟩
  | some rule =>
    have hmem := Table.mem_of_rule? hrule
    rw [Table.target_of_rule? hrule]
    -- The amended entry is copied the second time, or amended by the same rule.
    rcases ht.keys rule hmem with hnone | hsome
    · exact ⟨Table.target_of_rule?_none hnone, Table.outcome_of_rule?_none hnone v⟩
    · have happly := (Table.outcome_eq_ok_iff_of_rule? hrule).mp hv
      refine ⟨Table.target_of_rule? hsome, (Table.outcome_eq_ok_iff_of_rule? hsome).mpr ?_⟩
      exact Action.applyAll_applyAll ht.fields (ht.paths rule hmem) (ht.replacements rule hmem)
        hentry happly

/-- **A run over the output of a run changes nothing,** if the table is stable. -/
theorem applyRules_of_stable (ht : t.Stable) {r o : Record} (hr : (Json.obj r).Ordered)
    (h : (applyRules t r).1 = .ok o) : (applyRules t o).1 = .ok o := by
  rw [Json.Ordered, Json.orderedMembers_iff] at hr
  obtain ⟨-, hcol⟩ := collected_of_applyRules hr.1 h
  refine applyRules_of_forall_fixed hcol.ordered fun e he ↦ ?_
  obtain ⟨e₀, he₀, htarget, -, hv⟩ := (hcol.get?_iff e.1 e.2).mp (Keyed.get?_of_mem hcol.ordered he)
  rw [← htarget]
  exact outcome_target ht (hr.2 e₀ he₀) hv

/-- **Stability.** A run over the output of a run succeeds and changes nothing, for every stable
table and hence for both built-in ones. -/
theorem applyRules_applyRules :
    (∀ t : Table, t.Stable → ∀ r o : Record, (Json.obj r).Ordered → (applyRules t r).1 = .ok o →
      (applyRules t o).1 = .ok o) ∧
    ∀ b : Builtin, ∃ t, b.table = .ok t ∧ t.Stable ∧ ∀ r o : Record, (Json.obj r).Ordered →
      (applyRules t r).1 = .ok o → (applyRules t o).1 = .ok o := by
  refine ⟨fun t ht r o ↦ applyRules_of_stable ht, fun b ↦ ?_⟩
  obtain ⟨t, htable, ht⟩ := b.exists_stable
  exact ⟨t, htable, ht, fun r o ↦ applyRules_of_stable ht⟩

/-- Two keys fall together and a field is appended; the output of the run stays as it is. -/
theorem applyRules_applyRules_append :
    let t : Table := {
      name := "t"
      layout := { encoding := .tagged, fields := {} }
      rules := [⟨⟨"k", Expr.isMatch (.chars (.single 'k'))⟩, "k",
        [.devpath "x", .paths [], .devpath "y"]⟩] }
    let entry : Json := .wrap "Object" (.arr [.arr [.str "DEVPATH", .str "z"]])
    let entry' : Json := .wrap "Object" (.arr [.arr [.str "DEVPATH", .str "y"],
      .arr [.str "PATHS", .wrap "Array" (.arr [])]])
    t.Stable ∧ (Json.obj [("k", entry), ("kk", entry)]).Ordered ∧
      (applyRules t [("k", entry), ("kk", entry)]).1 = .ok [("k", entry')] ∧
      (applyRules t [("k", entry')]).1 = .ok [("k", entry')] := by
  intro t entry entry'
  have ht : t.Stable := by
    refine ⟨by decide, List.forall_mem_singleton.mpr (.inr rfl), ?_, ?_⟩
    · exact List.forall_mem_singleton.mpr (by decide)
    · exact List.forall_mem_singleton.mpr (by decide +kernel)
  have hr : (Json.obj [("k", entry), ("kk", entry)]).Ordered := by decide +kernel
  have h : (applyRules t [("k", entry), ("kk", entry)]).1 = .ok [("k", entry')] := rfl
  exact ⟨ht, hr, h, applyRules_applyRules.1 t ht _ _ hr h⟩

end Record

end DeviceSnapshot
