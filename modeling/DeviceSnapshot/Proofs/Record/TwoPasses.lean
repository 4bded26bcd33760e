import DeviceSnapshot.Proofs.Record.Stability

/-!
# Two passes instead of one

The actions of a rule need not run in one pass over a record. They may be divided, so that a first
pass runs the first actions of every rule and a second pass, over the output of the first, runs the
rest. A `Division` is a table with its actions divided in this way, and the two passes give what one
pass gives (`Record.applyRules_secondPass`).

## What it takes

The second pass finds the entries under the canonical keys. An entry on which actions are still to
run must come to its own rule again there, and an entry on which none are left must not come to
another rule. So the first rule to match a canonical key is the rule that declares it, or no rule
matches the key and nothing is left for the second pass (`Division.Separable`).

Entries that fall together do so in the first pass. The second pass stores every entry under the
key it has, so which entries are kept is decided once, and in the same way as in a single pass.
-/

namespace DeviceSnapshot

/-! ## Divided tables -/

/-- A rule whose actions are divided between two passes. -/
structure DividedRule where
  keyPattern : Pattern
  canonicalKey : String
  /-- The actions that run in the first pass. -/
  first : List Action
  /-- The actions that run in the second pass. -/
  second : List Action

/-- The rule with the actions that one of the passes runs. -/
def DividedRule.rule (part : DividedRule → List Action) (r : DividedRule) : Rule where
  keyPattern := r.keyPattern
  canonicalKey := r.canonicalKey
  actions := part r

/-- A table whose rules are divided between two passes. -/
structure Division where
  name : String
  layout : Layout
  rules : List DividedRule

namespace Division

/-- The table with the actions that one of the passes runs. -/
def table (d : Division) (part : DividedRule → List Action) : Table where
  name := d.name
  layout := d.layout
  rules := d.rules.map (DividedRule.rule part)

def whole (d : Division) : Table := d.table fun r ↦ r.first ++ r.second

def firstPass (d : Division) : Table := d.table DividedRule.first

def secondPass (d : Division) : Table := d.table DividedRule.second

/-- The first divided rule that matches a key. -/
def rule? (d : Division) (key : String) : Option DividedRule :=
  d.rules.find? (·.keyPattern.isMatch key)

/-- Every rule is the first to match its canonical key, or no rule matches the key and the rule has
nothing to do in the second pass. -/
def Separable (d : Division) : Prop :=
  ∀ r ∈ d.rules,
    d.rule? r.canonicalKey = some r ∨ d.rule? r.canonicalKey = none ∧ r.second = []

variable {d : Division} {key : String}

theorem rule?_table (d : Division) (part : DividedRule → List Action) (key : String) :
    (d.table part).rule? key = (d.rule? key).map (DividedRule.rule part) := by
  rw [Table.rule?, table, List.find?_map]
  rfl

theorem rule?_table_of_some (part : DividedRule → List Action) {r : DividedRule}
    (h : d.rule? key = some r) : (d.table part).rule? key = some (r.rule part) := by
  rw [rule?_table, h]
  rfl

theorem rule?_table_of_none (part : DividedRule → List Action) (h : d.rule? key = none) :
    (d.table part).rule? key = none := by
  rw [rule?_table, h]
  rfl

theorem target_table (d : Division) (part part' : DividedRule → List Action) (key : String) :
    (d.table part).target key = (d.table part').target key := by
  cases h : d.rule? key with
  | none =>
    rw [Table.target_of_rule?_none (rule?_table_of_none _ h),
      Table.target_of_rule?_none (rule?_table_of_none _ h)]
  | some r =>
    rw [Table.target_of_rule? (rule?_table_of_some _ h),
      Table.target_of_rule? (rule?_table_of_some _ h)]
    rfl

theorem Separable.target_target (hd : d.Separable) (part : DividedRule → List Action)
    (key : String) : (d.table part).target ((d.table part).target key)
      = (d.table part).target key := by
  cases h : d.rule? key with
  | none =>
    have hnone := rule?_table_of_none part h
    rw [Table.target_of_rule?_none hnone, Table.target_of_rule?_none hnone]
  | some r =>
    rw [Table.target_of_rule? (rule?_table_of_some _ h)]
    change (d.table part).target r.canonicalKey = r.canonicalKey
    rcases hd r (List.mem_of_find?_eq_some h) with hself | ⟨hnone, -⟩
    · exact Table.target_of_rule? (rule?_table_of_some _ hself)
    · exact Table.target_of_rule?_none (rule?_table_of_none _ hnone)

end Division

theorem Action.applyAll_append (layout : Layout) (as bs : List Action) (entry : Json) :
    applyAll layout (as ++ bs) entry = applyAll layout as entry >>= applyAll layout bs :=
  List.foldlM_append

/-- **What becomes of an entry in one pass, becomes of it in two.** -/
theorem Division.Separable.outcome_whole {d : Division} (hd : d.Separable) {key : String}
    {entry v : Json} (hv : d.whole.outcome key entry = .ok v) :
    ∃ u, d.firstPass.outcome key entry = .ok u ∧
      d.secondPass.outcome (d.whole.target key) u = .ok v := by
  cases h : d.rule? key with
  | none =>
    have hnone := fun part ↦ rule?_table_of_none part h
    rw [whole, Table.outcome_of_rule?_none (hnone _)] at hv
    rw [whole, Table.target_of_rule?_none (hnone _)]
    exact ⟨entry, Table.outcome_of_rule?_none (hnone _) entry,
      hv ▸ Table.outcome_of_rule?_none (hnone _) entry⟩
  | some r =>
    have hsome := fun part ↦ rule?_table_of_some part h
    rw [whole, Table.outcome_eq_ok_iff_of_rule? (hsome _)] at hv
    rw [whole, Table.target_of_rule? (hsome _)]
    change Action.applyAll d.layout (r.first ++ r.second) entry = .ok v at hv
    rw [Action.applyAll_append] at hv
    cases hu : Action.applyAll d.layout r.first entry with
    | error fault =>
      rw [hu] at hv
      cases hv
    | ok u =>
      rw [hu] at hv
      change Action.applyAll d.layout r.second u = .ok v at hv
      refine ⟨u, (Table.outcome_eq_ok_iff_of_rule? (hsome _)).mpr hu, ?_⟩
      change d.secondPass.outcome r.canonicalKey u = .ok v
      -- The second pass has the same rule again, or no rule and nothing left to do.
      rcases hd r (List.mem_of_find?_eq_some h) with hself | ⟨hnone, hsecond⟩
      · exact (Table.outcome_eq_ok_iff_of_rule? (rule?_table_of_some _ hself)).mpr hv
      · rw [hsecond] at hv
        obtain rfl : u = v := Except.ok.inj hv
        exact Table.outcome_of_rule?_none (rule?_table_of_none _ hnone) u

/-! ## Runs one after the other -/

namespace Record

theorem injOn_target_of_forall_eq {t : Table} {r : Record} (h : ∀ k ∈ r.keys, t.target k = k) :
    Set.InjOn t.target {k | k ∈ r.keys} := by
  intro k hk k' hk' heq
  rwa [h k hk, h k' hk'] at heq

/-- **Two runs make one,** if the outcomes of the second run are those of the one run and the second
run leaves every entry under the key where the first run has put it. -/
theorem applyRules_of_outcomes {t t₁ t₂ : Table} (htarget₁ : ∀ k, t₁.target k = t.target k)
    (htarget₂ : ∀ k, t₂.target (t.target k) = t.target k)
    (houtcome : ∀ k entry v, t.outcome k entry = .ok v →
      ∃ u, t₁.outcome k entry = .ok u ∧ t₂.outcome (t.target k) u = .ok v)
    {r o : Record} (hr : r.Ordered) (h : (applyRules t r).1 = .ok o) :
    ∃ m, (applyRules t₁ r).1 = .ok m ∧ (applyRules t₂ m).1 = .ok o := by
  obtain ⟨hok, hcol⟩ := collected_of_applyRules hr h
  have hok₁ : ∀ e ∈ r, ∃ u, t₁.outcome e.1 e.2 = .ok u := by
    intro e he
    obtain ⟨v, hv⟩ := hok e he
    obtain ⟨u, hu, -⟩ := houtcome e.1 e.2 v hv
    exact ⟨u, hu⟩
  obtain ⟨m, hm, hcol₁⟩ := applyFrom_of_forall_ok (collected_nil t₁) hr hok₁
  -- What is under a key after the first run, the second run takes to what the one run has there.
  have hstep : ∀ c u, Keyed.get? m c = some u →
      t₂.target c = c ∧ ∃ v, t₂.outcome c u = .ok v ∧ Keyed.get? o c = some v := by
    intro c u hu
    obtain ⟨e, he, rfl, hlast, hu⟩ := (hcol₁.get?_iff c u).mp hu
    obtain ⟨v, hv⟩ := hok e he
    obtain ⟨u', hu', hv'⟩ := houtcome e.1 e.2 v hv
    obtain rfl : u' = u := Except.ok.inj (hu'.symm.trans hu)
    simp only [htarget₁] at hlast ⊢
    exact ⟨htarget₂ e.1, v, hv', (hcol.get?_iff _ v).mpr ⟨e, he, rfl, hlast, hv⟩⟩
  have hkeys : ∀ c, c ∈ m.keys ↔ c ∈ o.keys := by
    intro c
    rw [hcol₁.mem_keys_iff hok₁, hcol.mem_keys_iff hok, List.nil_append]
    simp only [htarget₁]
  have hself : ∀ k ∈ m.keys, t₂.target k = k := by
    intro k hk
    obtain ⟨u, hu⟩ := Keyed.mem_keys_iff.mp hk
    exact (hstep k u hu).1
  refine ⟨m, congrArg Prod.fst hm, ?_⟩
  refine (applyRules_eq_ok_iff hcol₁.ordered (injOn_target_of_forall_eq hself)).mpr
    ⟨fun e he ↦ ?_, hcol.ordered, fun c v ↦ ?_⟩
  · obtain ⟨-, v, hv, -⟩ := hstep e.1 e.2 (Keyed.get?_of_mem hcol₁.ordered he)
    exact ⟨v, hv⟩
  · constructor
    · intro hv
      obtain ⟨u, hu⟩ := Keyed.mem_keys_iff.mp ((hkeys c).mpr (Keyed.mem_keys_iff.mpr ⟨v, hv⟩))
      obtain ⟨hc, v', hv', ho⟩ := hstep c u hu
      obtain rfl : v = v' := Option.some.inj (hv.symm.trans ho)
      exact ⟨(c, u), Keyed.mem_of_get? hu, hc, hv'⟩
    · rintro ⟨e, he, htarget, hv⟩
      obtain ⟨hc, v', hv', ho⟩ := hstep e.1 e.2 (Keyed.get?_of_mem hcol₁.ordered he)
      obtain rfl : v' = v := Except.ok.inj (hv'.symm.trans hv)
      rwa [← htarget, hc]

end Record

/-! ## The built-in table for the device database -/

/-- A rule that leaves to the second pass what follows its actions on paths, if its canonical key is
one of the given keys, and that leaves nothing to it otherwise. -/
def Rule.divide (keys : List String) (r : Rule) : DividedRule where
  keyPattern := r.keyPattern
  canonicalKey := r.canonicalKey
  first :=
    if r.canonicalKey ∈ keys then r.actions.takeWhile (·.subs?.isSome) else r.actions
  second := if r.canonicalKey ∈ keys then r.actions.dropWhile (·.subs?.isSome) else []

/-- The division of a table in which only the rules with the given canonical keys act twice. -/
def Table.divide (keys : List String) (t : Table) : Division where
  name := t.name
  layout := t.layout
  rules := t.rules.map (Rule.divide keys)

namespace Table

variable {t : Table} {keys : List String}

theorem whole_divide (keys : List String) (t : Table) : (t.divide keys).whole = t := by
  have hrule : ∀ r : Rule,
      (r.divide keys).rule (fun r ↦ r.first ++ r.second) = r := by
    intro r
    rw [Rule.divide, DividedRule.rule]
    split
    · rw [List.takeWhile_append_dropWhile]
    · rw [List.append_nil]
  have hrules : (t.rules.map (Rule.divide keys)).map
      (DividedRule.rule fun r ↦ r.first ++ r.second) = t.rules := by
    rw [List.map_map]
    exact List.map_congr_left (fun r _ ↦ hrule r) |>.trans (List.map_id _)
  exact congrArg (fun rules ↦ (⟨t.name, t.layout, rules⟩ : Table)) hrules

theorem rule?_divide (keys : List String) (t : Table) (key : String) :
    (t.divide keys).rule? key = (t.rule? key).map (Rule.divide keys) := by
  rw [Division.rule?, divide, List.find?_map]
  rfl

/-- If canonical keys come back to their own rules or to none, a division is separable as long as
the rules that act twice match their canonical keys. -/
theorem separable_divide (ht : ∀ rule ∈ t.rules,
      t.rule? rule.canonicalKey = none ∨ t.rule? rule.canonicalKey = some rule)
    (hkeys : ∀ k ∈ keys, (t.rule? k).isSome) : (t.divide keys).Separable := by
  intro r hr
  obtain ⟨rule, hrule, rfl⟩ := List.mem_map.mp hr
  change (t.divide keys).rule? rule.canonicalKey = _
    ∨ (t.divide keys).rule? rule.canonicalKey = _ ∧ _
  rw [rule?_divide]
  rcases ht rule hrule with hnone | hsome
  · have hnot : rule.canonicalKey ∉ keys := by
      intro hmem
      have hisSome := hkeys _ hmem
      rw [hnone] at hisSome
      cases hisSome
    rw [hnone]
    exact .inr ⟨rfl, if_neg hnot⟩
  · rw [hsome]
    exact .inl rfl

end Table

/-- The keys of the two mapped devices. -/
def Builtin.mappedDevices : List String :=
  ["/devices/virtual/block/dm-0", "/devices/virtual/block/dm-1"]

/-- The fields that a divided rule changes in the first and in the second pass. -/
def DividedRule.targets (fields : FieldNames) (r : DividedRule) : List String × List String :=
  (r.first.map (Action.target fields), r.second.map (Action.target fields))

/-- The rules for the mapped devices match their canonical keys, and each of them has an action on
paths and one on the identifier. -/
theorem Builtin.exists_divide_mappedDevices : ∃ t, udev.table = .ok t ∧
    (∀ k ∈ mappedDevices, (t.rule? k).isSome) ∧
      ((t.divide mappedDevices).rules.filter (·.canonicalKey ∈ mappedDevices)).map
        (DividedRule.targets t.layout.fields)
          = [(["PATHS"], ["DM_UUID"]), (["PATHS"], ["DM_UUID"])] :=
  exists_table_of udev (by decide +kernel)

/-! ## The law of two passes -/

namespace Record

theorem applyRules_secondPass {d : Division} (hd : d.Separable) {r o : Record} (hr : r.Ordered)
    (h : (applyRules d.whole r).1 = .ok o) :
    ∃ m, (applyRules d.firstPass r).1 = .ok m ∧ (applyRules d.secondPass m).1 = .ok o := by
  have htarget : ∀ k, d.secondPass.target (d.whole.target k) = d.whole.target k := by
    intro k
    rw [Division.secondPass, d.target_table _ fun r ↦ r.first ++ r.second]
    exact hd.target_target _ k
  exact applyRules_of_outcomes (d.target_table _ _) htarget
    (fun k entry v hv ↦ hd.outcome_whole hv) hr h

/-- **Two passes give what one pass gives,** for every division that is separable. One such division
is that of the built-in table for the device database, by which the rules for the two mapped devices
substitute paths in the first pass and overwrite the identifier in the second. -/
theorem applyRules_divided :
    (∀ d : Division, d.Separable → ∀ r o : Record, r.Ordered →
      (applyRules d.whole r).1 = .ok o →
      ∃ m, (applyRules d.firstPass r).1 = .ok m ∧ (applyRules d.secondPass m).1 = .ok o) ∧
    ∃ d : Division, Builtin.udev.table = .ok d.whole ∧ d.Separable ∧
      (d.rules.filter (·.canonicalKey ∈ Builtin.mappedDevices)).map
        (DividedRule.targets d.layout.fields)
          = [(["PATHS"], ["DM_UUID"]), (["PATHS"], ["DM_UUID"])] ∧
      ∀ r o : Record, r.Ordered → (applyRules d.whole r).1 = .ok o →
        ∃ m, (applyRules d.firstPass r).1 = .ok m ∧ (applyRules d.secondPass m).1 = .ok o := by
  refine ⟨fun d hd r o ↦ applyRules_secondPass hd, ?_⟩
  obtain ⟨t, htable, hkeys, htargets⟩ := Builtin.exists_divide_mappedDevices
  obtain ⟨t', htable', ht⟩ := Builtin.udev.exists_stable
  obtain rfl := Except.ok.inj (htable.symm.trans htable')
  have hsep : (t.divide Builtin.mappedDevices).Separable := Table.separable_divide ht.keys hkeys
  refine ⟨t.divide Builtin.mappedDevices, ?_, hsep, htargets,
    fun r o ↦ applyRules_secondPass hsep⟩
  rw [Table.whole_divide, htable]

/-- Of two devices that fall together the second is kept in the first pass already, and amended in
both. A third one comes to a key that no rule matches, where another entry has been. -/
theorem applyRules_divided_collisions :
    let volume : DividedRule := ⟨⟨"d", Expr.isMatch (.chars (.single 'd'))⟩, "d",
      [.paths []], [.dmUuid "u"]⟩
    let partition : DividedRule := ⟨⟨"s", Expr.isMatch (.chars (.single 's'))⟩, "q",
      [.devpath "x"], []⟩
    let d : Division := {
      name := "t"
      layout := { encoding := .plain, fields := {} }
      rules := [volume, partition] }
    let r : Record := [("d", .obj []), ("q", .null), ("s", .obj []), ("xd", .obj [("A", .null)])]
    let m : Record := [("d", .obj [("A", .null), ("PATHS", .arr [])]),
      ("q", .obj [("DEVPATH", .str "x")])]
    let o : Record := [("d", .obj [("A", .null), ("DM_UUID", .str "u"), ("PATHS", .arr [])]),
      ("q", .obj [("DEVPATH", .str "x")])]
    d.Separable ∧ r.Ordered ∧ (applyRules d.whole r).1 = .ok o ∧
      (applyRules d.firstPass r).1 = .ok m ∧ (applyRules d.secondPass m).1 = .ok o := by
  intro volume partition d r m o
  have hvolume : d.rule? "d" = some volume := rfl
  have hpartition : d.rule? "q" = none := rfl
  have hd : d.Separable := by
    intro rule hrule
    rcases List.mem_cons.mp hrule with heq | hrule
    · rw [heq]
      exact .inl hvolume
    · rw [List.mem_singleton.mp hrule]
      exact .inr ⟨hpartition, rfl⟩
  have hr : r.Ordered := by decide +kernel
  have h : (applyRules d.whole r).1 = .ok o := by
    subst volume partition d r o
    rfl
  have hm : (applyRules d.firstPass r).1 = .ok m := by
    subst volume partition d r m
    rfl
  obtain ⟨m', hm', ho⟩ := applyRules_divided.1 d hd r o hr h
  obtain rfl : m = m' := Except.ok.inj (hm.symm.trans hm')
  exact ⟨hd, hr, h, hm, ho⟩

end Record

end DeviceSnapshot
