import DeviceSnapshot.Proofs.Entry.Encodings
import DeviceSnapshot.Proofs.Entry.Field

/-!
# What a rule does to an entry

A rule says nothing about an entry but the values of up to three fields. This module says the rest:
which fields the amended entry has, where they stand, and what is left as it was. All of it is put
together in `Action.Amends`, and `Rule.amends_of_amend_eq_ok` shows that a rule that can amend an
entry does exactly this.

## Places

In a pairs container the places matter. The invariant of a run is `Pairs.Written`: in front stand
the pairs that were there, which agree with the old ones apart from the fields written so far, and
behind them one pair for each of these fields that was new, in the order in which they were first
written. One write goes from one set of fields to the next (`Pairs.Written.upsert`), and a run
collects the fields of its actions.
-/

namespace DeviceSnapshot

namespace Pairs

variable {name : String} {v : Json} {i : Nat} {ps qs rs : List Json}
  {fields fields' : Finset String}

/-- The names of pairs, in order. A malformed pair has none. -/
def names (ps : List Json) : List String := (ps.filterMap Json.pair?).map Prod.fst

@[simp] theorem names_cons_pair (n : String) (u : Json) (ps : List Json) :
    names (.arr [.str n, u] :: ps) = n :: names ps := rfl

theorem names_cons_of_pair?_none {p : Json} (h : p.pair? = none) (ps : List Json) :
    names (p :: ps) = names ps := by
  rw [names, List.filterMap_cons_none h, names]

theorem names_blank (fields : Finset String) (ps : List Json) :
    names (blank fields ps) = names ps := by
  induction ps generalizing fields with
  | nil => rfl
  | cons p ps ih =>
    rcases pair?_cases p with hp | ⟨n, u, rfl⟩
    · rw [blank_cons_of_pair?_none hp, names_cons_of_pair?_none hp, names_cons_of_pair?_none hp, ih]
    · by_cases hn : n ∈ fields
      · rw [blank_cons_of_mem hn, names_cons_pair, names_cons_pair, ih]
      · rw [blank_cons_of_not_mem hn, names_cons_pair, names_cons_pair, ih]

/-! ## Pairs in the same places -/

theorem AgreeApart.refl (fields : Finset String) (ps : List Json) : AgreeApart fields ps ps :=
  fun _ ↦ .inl rfl

theorem AgreeApart.names_eq (h : AgreeApart fields ps qs) : names ps = names qs := by
  rw [← names_blank fields ps, h.blank_eq, names_blank]

theorem AgreeApart.exists_pair (h : AgreeApart fields ps qs) {u : Json}
    (hu : ps[i]? = some (.arr [.str name, u])) : ∃ w, qs[i]? = some (.arr [.str name, w]) := by
  rcases h i with heq | ⟨name', -, v, w, hv, hw, -⟩
  · exact ⟨u, heq ▸ hu⟩
  · rw [hu] at hv
    cases hv
    exact ⟨w, hw⟩

theorem AgreeApart.trans (h : AgreeApart fields ps qs) (h' : AgreeApart fields' qs rs) :
    AgreeApart (fields ∪ fields') ps rs := by
  intro i
  rcases h i with heq | ⟨name, hname, v, w, hv, hw, hfirst⟩
  · rcases h' i with heq' | ⟨name, hname, v, w, hv, hw, hfirst⟩
    · exact .inl (heq.trans heq')
    · refine .inr ⟨name, Finset.mem_union_right _ hname, v, w, heq.trans hv, hw, ?_⟩
      intro j hj u hu
      obtain ⟨u', hu'⟩ := h.exists_pair hu
      exact hfirst j hj u' hu'
  · obtain ⟨w', hw'⟩ := h'.exists_pair hw
    exact .inr ⟨name, Finset.mem_union_left _ hname, v, w', hv, hw', hfirst⟩

theorem AgreeApart.cons {p : Json} (hp : ∀ n ∈ fields, ∀ u, p ≠ .arr [.str n, u])
    (h : AgreeApart fields ps qs) : AgreeApart fields (p :: ps) (p :: qs) := by
  intro i
  rcases i with _ | i
  · exact .inl rfl
  · rcases h i with heq | ⟨name, hname, v, w, hv, hw, hfirst⟩
    · exact .inl heq
    · refine .inr ⟨name, hname, v, w, hv, hw, ?_⟩
      intro j hj u hu
      rcases j with _ | j
      · exact hp name hname u (Option.some.inj hu)
      · exact hfirst j (Nat.lt_of_succ_lt_succ hj) u hu

theorem agreeApart_cons_pair (name : String) (v w : Json) (ps : List Json) :
    AgreeApart {name} (.arr [.str name, v] :: ps) (.arr [.str name, w] :: ps) := by
  intro i
  rcases i with _ | i
  · refine .inr ⟨name, Finset.mem_singleton_self name, v, w, rfl, rfl, ?_⟩
    intro j hj
    cases hj
  · exact .inl rfl

/-! ## One write -/

theorem of_upsert_append_of_mem (hname : name ∈ names ps)
    (h : upsert name v i (ps ++ qs) = .ok rs) :
    ∃ ps', rs = ps' ++ qs ∧ AgreeApart {name} ps ps' := by
  induction ps generalizing i rs with
  | nil => cases hname
  | cons p ps ih =>
    rcases of_upsert_cons_eq_ok h with ⟨u, rfl, rfl⟩ | ⟨n, u, rs', hn, rfl, hrs, rfl⟩
    · exact ⟨.arr [.str name, v] :: ps, rfl, agreeApart_cons_pair name u v ps⟩
    · rcases List.mem_cons.mp hname with rfl | hname
      · exact absurd rfl hn
      · obtain ⟨ps', rfl, hagree⟩ := ih hname hrs
        refine ⟨.arr [.str n, u] :: ps', rfl, hagree.cons ?_⟩
        intro n' hn' u' heq
        cases heq
        exact hn (Finset.mem_singleton.mp hn')

theorem of_upsert_append_of_not_mem (hname : name ∉ names ps)
    (h : upsert name v i (ps ++ qs) = .ok rs) :
    ∃ qs' j, upsert name v j qs = .ok qs' ∧ rs = ps ++ qs' := by
  induction ps generalizing i rs with
  | nil => exact ⟨rs, i, h, rfl⟩
  | cons p ps ih =>
    rcases of_upsert_cons_eq_ok h with ⟨u, rfl, rfl⟩ | ⟨n, u, rs', hn, rfl, hrs, rfl⟩
    · exact absurd List.mem_cons_self hname
    · obtain ⟨qs', j, hqs', rfl⟩ := ih (List.not_mem_of_not_mem_cons hname) hrs
      exact ⟨qs', j, hqs', rfl⟩

/-! ## Many writes -/

/-- The new names among the given ones, each once, in the order in which they come first. -/
def newNames (ps : List Json) (fields : List String) : List String :=
  fields.eraseDups.filter (· ∉ names ps)

theorem newNames_concat (ps : List Json) (fields : List String) (name : String) :
    newNames ps (fields ++ [name])
      = if name ∈ names ps ∨ name ∈ fields then newNames ps fields
        else newNames ps fields ++ [name] := by
  have hremove : [name].removeAll fields = if name ∈ fields then [] else [name] := by
    simp [List.removeAll, List.filter_cons]
  rw [newNames, List.eraseDups_append, hremove, List.filter_append]
  by_cases hfields : name ∈ fields
  · simp [hfields, newNames]
  · by_cases hnames : name ∈ names ps <;> simp [hfields, hnames, newNames, List.eraseDups_cons]

theorem mem_newNames_iff {written : List String} :
    name ∈ newNames ps written ↔ name ∈ written ∧ name ∉ names ps := by
  rw [newNames, List.mem_filter, List.mem_eraseDups, decide_eq_true_iff]

/-- The pairs after writes to some fields, given with repetition in the order of the writes: those
that were there, apart from the values of the fields, and then the fields that are new. -/
def Written (written : List String) (ps qs : List Json) : Prop :=
  ∃ (kept : List Json) (added : List (String × Json)), qs = kept ++ added.map Json.field ∧
    AgreeApart written.toFinset ps kept ∧ Keyed.keys added = newNames ps written

theorem written_nil (ps : List Json) : Written [] ps ps :=
  ⟨ps, [], (List.append_nil ps).symm, .refl _ ps, rfl⟩

/-- **One more write.** -/
theorem Written.upsert {written : List String} (h : Written written ps qs)
    (hup : Pairs.upsert name v i qs = .ok rs) : Written (written ++ [name]) ps rs := by
  obtain ⟨kept, added, rfl, hagree, hkeys⟩ := h
  have hunion : (written ++ [name]).toFinset = written.toFinset ∪ {name} := by
    ext n
    simp
  by_cases hname : name ∈ names ps
  · -- The name stands among the old pairs, so the write ends there.
    obtain ⟨kept', rfl, hagree'⟩ := of_upsert_append_of_mem (hagree.names_eq ▸ hname) hup
    refine ⟨kept', added, rfl, ?_, ?_⟩
    · rw [hunion]
      exact hagree.trans hagree'
    · rw [newNames_concat, if_pos (.inl hname), hkeys]
  · -- The write reaches the new pairs, and finds one there if the name was written before.
    obtain ⟨qs', j, hqs', rfl⟩ := of_upsert_append_of_not_mem (hagree.names_eq ▸ hname) hup
    obtain ⟨added', rfl, hkeys'⟩ := of_upsert_map_field hqs'
    refine ⟨kept, added', rfl, ?_, ?_⟩
    · rw [hunion]
      exact hagree.trans (.refl {name} kept)
    · have hiff : name ∈ newNames ps written ↔ name ∈ names ps ∨ name ∈ written := by
        rw [mem_newNames_iff, and_iff_left hname, or_iff_right hname]
      rw [hkeys', hkeys, newNames_concat]
      exact if_congr hiff rfl rfl

end Pairs

/-! ## Texts of entries -/

namespace Layout

variable {layout : Layout} {e : Json}

/-- A field holds a text afterwards, in the form of what it held before: wrapped if that was
wrapped, or if there was nothing and the layout is tagged, and bare otherwise. -/
def Overwritten (layout : Layout) (field s : String) (e e' : Json) : Prop :=
  ∃ x, layout.get? e field = .ok x ∧
    ((∃ w, x = some (.obj [("String", w)])) ∨ (x = none ∧ layout.encoding = .tagged) →
      layout.get? e' field = .ok (some (.obj [("String", .str s)]))) ∧
    (¬((∃ w, x = some (.obj [("String", w)])) ∨ (x = none ∧ layout.encoding = .tagged)) →
      layout.get? e' field = .ok (some (.str s)))

theorem wraps_eq_true_iff {tag : String} {x : Option Json} : layout.wraps tag x = true ↔
    (∃ w, x = some (.obj [(tag, w)])) ∨ (x = none ∧ layout.encoding = .tagged) := by
  rcases x with _ | v
  · simp [wraps]
  · simp [wraps, Option.isSome_iff_exists, Json.tagged?_eq_some_iff, Json.wrap]

end Layout

namespace Action

variable {layout : Layout} {as : List Action} {c c' : Container} {e e' : Json}

/-! ## Runs -/

/-- **A run over pairs.** -/
theorem written_of_applyAllTo {written : List String} {ps qs : List Json}
    (hwritten : Pairs.Written written ps qs) (h : applyAllTo layout as (.pairs qs) = .ok c') :
    ∃ rs, c' = .pairs rs ∧ Pairs.Written (written ++ as.map (target layout.fields)) ps rs := by
  -- The fields written so far grow along the run, while the old pairs stay the same.
  induction as generalizing written qs with
  | nil =>
    rw [List.map_nil, List.append_nil]
    exact ⟨qs, (Except.ok.inj h).symm, hwritten⟩
  | cons a as ih =>
    obtain ⟨d, hd, h⟩ := applyAllTo_cons_eq_ok_iff.mp h
    obtain ⟨x, v, -, -, hup⟩ := applyTo_eq_ok_iff.mp hd
    obtain ⟨qs', hqs', rfl⟩ := Container.upsert_pairs_eq_ok hup
    rw [List.map_cons, List.append_cons]
    exact ih (hwritten.upsert hqs') h

/-- **A run over members.** -/
theorem mem_keys_of_applyAllTo {ms : Keyed Json}
    (h : applyAllTo layout as (.members ms) = .ok c') :
    ∃ ms', c' = .members ms' ∧ ∀ k, k ∈ ms'.keys ↔ k ∈ ms.keys ∨ k ∈ targets layout as := by
  induction as generalizing ms with
  | nil => exact ⟨ms, (Except.ok.inj h).symm, fun k ↦ by simp [targets]⟩
  | cons a as ih =>
    obtain ⟨d, hd, h⟩ := applyAllTo_cons_eq_ok_iff.mp h
    obtain ⟨x, v, -, -, hup⟩ := applyTo_eq_ok_iff.mp hd
    rw [← Except.ok.inj hup] at h
    obtain ⟨ms', rfl, hkeys⟩ := ih h
    refine ⟨ms', rfl, ?_⟩
    intro k
    rw [hkeys, Keyed.mem_keys_insert, targets, targets, List.map_cons, List.toFinset_cons,
      Finset.mem_insert, or_assoc, or_left_comm]

/-! ## Entries -/

/-- What the actions of a rule make of an entry that they can amend. -/
structure Amends (layout : Layout) (as : List Action) (e e' : Json) : Prop where
  /-- The entry stays a pairs container, or stays none. -/
  container : (layout.pairs? e').isSome = (layout.pairs? e).isSome
  /-- Pairs stay in their places, and what changes is the values of the first pairs with the names
  of the fields. Fields that are new come at the end, each once, in the order of the first actions
  on them. -/
  pairs : ∀ ps, layout.pairs? e = some ps → ∃ qs, layout.pairs? e' = some qs ∧
    Pairs.Written (as.map (target layout.fields)) ps qs
  /-- Any other object has the members that it had and those of the changed fields. -/
  members : ∀ ms, layout.pairs? e = none → e = .obj ms → ∃ ms', e' = .obj ms' ∧
    (Keyed.Ordered ms → Keyed.Ordered ms') ∧
    ∀ k, k ∈ Keyed.keys ms' ↔ k ∈ Keyed.keys ms ∨ k ∈ targets layout as
  /-- An entry that is no object is amended by no action. -/
  other : (∀ ms, e ≠ .obj ms) → as = [] ∧ e' = e
  /-- All other fields read as before, or fail to be read as before. -/
  frame : ∀ field, field ∉ targets layout as → layout.get? e' field = layout.get? e field
  devpath : ∀ before s after, as = before ++ .devpath s :: after →
    (∀ s', .devpath s' ∉ after) → layout.Overwritten layout.fields.devpath s e e'
  dmUuid : ∀ before s after, as = before ++ .dmUuid s :: after →
    (∀ s', .dmUuid s' ∉ after) → layout.Overwritten layout.fields.dmUuid s e e'
  /-- A missing list of paths is added empty, in the form that is native to the layout; in a list
  that is there every path goes through the substitutions of all actions. -/
  paths : ∀ subs, .paths subs ∈ as →
    (layout.get? e layout.fields.paths = .ok none ∧ layout.get? e' layout.fields.paths
      = .ok (some (if layout.encoding = .tagged then .obj [("Array", .arr [])] else .arr []))) ∨
    ∃ v, layout.get? e layout.fields.paths = .ok (some v) ∧ v.IsPaths ∧
      layout.get? e' layout.fields.paths
        = .ok (some (v.mapList (Json.mapText (Substitution.applyEach (as.filterMap subs?)))))

theorem amends_nil (layout : Layout) (e : Json) : Amends layout [] e e where
  container := rfl
  pairs ps hps := ⟨ps, hps, Pairs.written_nil ps⟩
  members ms _ he := ⟨ms, he, id, fun k ↦ by simp [targets]⟩
  other _ := ⟨rfl, rfl⟩
  frame _ _ := rfl
  devpath before s after h := absurd h (by simp)
  dmUuid before s after h := absurd h (by simp)
  paths subs h := absurd h List.not_mem_nil

theorem overwritten_of_applyAllTo {mk : String → Action} {field s : String}
    {before after : List Action} (hc : layout.container e = .ok c)
    (hc' : layout.container e' = .ok c')
    (hmk : ∀ s x, (mk s).newValue layout x = .ok (layout.stringLike x s))
    (hfield : ∀ a : Action, a.target layout.fields = field ↔ ∃ s, a = mk s)
    (hafter : ∀ s', mk s' ∉ after)
    (h : applyAllTo layout (before ++ mk s :: after) c = .ok c') :
    layout.Overwritten field s e e' := by
  obtain ⟨x, hx, hx'⟩ := get?_applyAllTo_text hmk hfield hafter h
  refine ⟨x, (Layout.get?_of_container hc field).trans hx, ?_⟩
  rw [Layout.get?_of_container hc', hx', Layout.stringLike, ← Layout.wraps_eq_true_iff]
  constructor
  · intro hwraps
    rw [if_pos hwraps]
    rfl
  · intro hwraps
    rw [if_neg hwraps]

theorem target_eq_devpath_iff {fields : FieldNames} (hf : fields.Distinct) (a : Action) :
    a.target fields = fields.devpath ↔ ∃ s, a = .devpath s := by
  obtain ⟨hpaths, -, htexts⟩ := FieldNames.distinct_iff.mp hf
  cases a <;> simp [target, hpaths, htexts.symm]

theorem target_eq_dmUuid_iff {fields : FieldNames} (hf : fields.Distinct) (a : Action) :
    a.target fields = fields.dmUuid ↔ ∃ s, a = .dmUuid s := by
  obtain ⟨-, hpaths, htexts⟩ := FieldNames.distinct_iff.mp hf
  cases a <;> simp [target, hpaths, htexts]

theorem amends_of_applyAllTo (hf : layout.fields.Distinct) (hc : layout.container e = .ok c)
    (h : applyAllTo layout as c = .ok c') : Amends layout as e c'.toJson := by
  have hc' : layout.container c'.toJson = .ok c' := (Layout.reads_of_container hc).applyAllTo h
  refine ⟨?_, ?_, ?_, ?_, ?_, ?_, ?_, ?_⟩
  · rcases c with ps | ms
    · obtain ⟨rs, rfl, -⟩ := written_of_applyAllTo (Pairs.written_nil ps) h
      rw [Layout.container_eq_pairs_iff.mp hc, Layout.container_eq_pairs_iff.mp hc']
      rfl
    · obtain ⟨ms', rfl, -⟩ := mem_keys_of_applyAllTo h
      rw [(Layout.container_eq_members_iff.mp hc).1, (Layout.container_eq_members_iff.mp hc').1]
  · intro ps hps
    obtain rfl : .pairs ps = c := Except.ok.inj ((Layout.container_of_pairs? hps).symm.trans hc)
    obtain ⟨rs, rfl, hwritten⟩ := written_of_applyAllTo (Pairs.written_nil ps) h
    exact ⟨rs, Layout.container_eq_pairs_iff.mp hc', hwritten⟩
  · intro ms hps he
    obtain rfl : .members ms = c :=
      Except.ok.inj ((Layout.container_eq_members_iff.mpr ⟨hps, he⟩).symm.trans hc)
    obtain ⟨ms', rfl, hkeys⟩ := mem_keys_of_applyAllTo h
    exact ⟨ms', rfl, fun hms ↦ ordered_of_applyAllTo (c := .members ms) hms h, hkeys⟩
  · intro hobj
    rw [← Layout.toJson_of_container hc] at hobj
    rcases c with ps | ms
    · exact absurd rfl (hobj _)
    · exact absurd rfl (hobj ms)
  · intro field hfield
    rw [Layout.get?_of_container hc, Layout.get?_of_container hc',
      get?_applyAllTo_of_not_mem h hfield]
  · rintro before s after rfl hafter
    exact overwritten_of_applyAllTo hc hc' (fun _ _ ↦ rfl) (target_eq_devpath_iff hf) hafter h
  · rintro before s after rfl hafter
    exact overwritten_of_applyAllTo hc hc' (fun _ _ ↦ rfl) (target_eq_dmUuid_iff hf) hafter h
  · intro subs hsubs
    rw [Layout.get?_of_container hc, Layout.get?_of_container hc']
    rcases get?_applyAllTo_paths hf hsubs h with ⟨hx, hx'⟩ | hlist
    · refine .inl ⟨hx, ?_⟩
      rw [hx', Layout.listLike, Layout.wraps]
      simp [Json.wrap]
    · exact .inr hlist

end Action

/-- **A rule does what it says, and nothing else.** -/
theorem Rule.amends_of_amend_eq_ok (layout : Layout) (hf : layout.fields.Distinct) (rule : Rule)
    (key : String) (e e' : Json) (h : rule.amend layout key e = .ok e') :
    Action.Amends layout rule.actions e e' := by
  have happly : Action.applyAll layout rule.actions e = .ok e' := by
    rw [Rule.amend] at h
    rcases hrun : Action.applyAll layout rule.actions e with fault | v
    · rw [hrun] at h
      cases h
    · rw [hrun] at h
      rw [Except.ok.inj h]
  rcases Action.of_applyAll_eq_ok happly with ⟨hnil, rfl⟩ | ⟨c, c', hc, hrun, rfl⟩
  · rw [hnil]
    exact Action.amends_nil layout e'
  · exact Action.amends_of_applyAllTo hf hc hrun

/-- Two actions on paths and two texts for one field. In the first entry a second pair of the same
name and a malformed pair stay behind the changed ones; the second entry has neither field. -/
theorem Rule.amends_duplicates :
    let layout : Layout := ⟨.tagged, {}⟩
    let b : Pattern := ⟨"b", Expr.isMatch (.chars (.single 'b'))⟩
    let c : Pattern := ⟨"c", Expr.isMatch (.chars (.single 'c'))⟩
    let rule : Rule :=
      ⟨b, "b", [.paths [⟨b, "c"⟩], .devpath "x", .paths [⟨c, "y"⟩], .devpath "z"]⟩
    let pair (name : String) (v : Json) : Json := .arr [.str name, v]
    let e := Json.wrap "Object" (.arr [pair "DEVPATH" (.wrap "String" .null),
      pair "PATHS" (.arr [.str "b", .wrap "String" (.str "c"), .str "o"]),
      pair "DEVPATH" (.str "b"), .null])
    let e' := Json.wrap "Object" (.arr [pair "DEVPATH" (.wrap "String" (.str "z")),
      pair "PATHS" (.arr [.str "y", .wrap "String" (.str "y"), .str "o"]),
      pair "DEVPATH" (.str "b"), .null])
    let empty := Json.wrap "Object" (.arr [])
    let empty' := Json.wrap "Object" (.arr [pair "PATHS" (.wrap "Array" (.arr [])),
      pair "DEVPATH" (.wrap "String" (.str "z"))])
    layout.fields.Distinct ∧
      rule.amend layout "b" e = .ok e' ∧ Action.Amends layout rule.actions e e' ∧
      rule.amend layout "b" empty = .ok empty' ∧
      Action.Amends layout rule.actions empty empty' := by
  intro layout b c rule pair e e' empty empty'
  have hf : layout.fields.Distinct := by decide +kernel
  have he : rule.amend layout "b" e = .ok e' := by
    subst e e' pair rule b c layout
    with_unfolding_all rfl
  have hempty : rule.amend layout "b" empty = .ok empty' := rfl
  exact ⟨hf, he, Rule.amends_of_amend_eq_ok layout hf rule "b" e e' he, hempty,
    Rule.amends_of_amend_eq_ok layout hf rule "b" empty empty' hempty⟩

end DeviceSnapshot
