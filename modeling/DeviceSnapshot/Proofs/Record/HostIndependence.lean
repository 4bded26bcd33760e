import DeviceSnapshot.Proofs.Entry.Settled
import DeviceSnapshot.Proofs.Record.Collision

/-!
# Snapshots of different hosts

A table is written so that the snapshots of one device on two hosts become equal. Between the hosts
differ the keys that rules match, and in their entries the fields that the rules change. What is
proved here is that nothing of this shows in the output, in whichever order the two runs come to the
entries.

## Entries and records

For two entries under one rule the difference must lie in fields that the rule changes, and there it
must disappear: texts that are overwritten may be any values, as long as both are wrapped or both
are bare, and lists of paths must be lists that the substitutions take to the same paths. Then the
runs of the actions agree (`applyAll_eq_of_alike`).

For records in which no two keys fall together the output is determined by the outcomes and targets
of the entries, whatever their order (`applyRules_eq_ok_iff`). So it is enough that the entries of
the one record correspond to those of the other.
-/

namespace DeviceSnapshot

namespace Action

variable {layout : Layout} {c c' : Container}

/-- Two containers that actions make equal: they agree apart from the fields that the actions
change, and these are in one form. -/
structure Alike (layout : Layout) (as : List Action) (c c' : Container) : Prop where
  agreeApart : c.AgreeApart (targets layout as) c'
  /-- Where a text is written, both values are wrapped or both are bare. -/
  texts : ∀ a ∈ as, a.subs? = none → ∀ v w, c.get? (a.target layout.fields) = .ok (some v) →
    c'.get? (a.target layout.fields) = .ok (some w) → Json.SameWrap "String" v w
  /-- The first action on paths takes both lists to the same paths. -/
  paths : ∀ subs, as.findSome? subs? = some subs → ∀ v w,
    c.get? layout.fields.paths = .ok (some v) → c'.get? layout.fields.paths = .ok (some w) →
    v = w ∨ Json.SamePaths subs v w

theorem findSome?_subs?_of_firstOn? {as : List Action}
    {subs : List Substitution} (h : firstOn? layout layout.fields.paths as = some (.paths subs)) :
    as.findSome? subs? = some subs := by
  induction as with
  | nil => cases h
  | cons a as ih =>
    by_cases ha : layout.fields.paths = a.target layout.fields
    · have hfirst : firstOn? layout (a.target layout.fields) (a :: as) = some a :=
        firstOn?_cons_self a as
      rw [← ha, h] at hfirst
      rw [← Option.some.inj hfirst, List.findSome?_cons]
      rfl
    · rw [firstOn?_cons_of_ne ha] at h
      have hnone : a.subs? = none := by
        cases a with
        | paths subs' => exact absurd rfl ha
        | devpath s => rfl
        | dmUuid s => rfl
      rw [List.findSome?_cons, hnone]
      exact ih h

theorem Alike.newValue_eq {as : List Action} (h : Alike layout as c c') {field : String}
    {a : Action} (ha : firstOn? layout field as = some a) {x x' : Option Json}
    (hx : c.get? field = .ok x) (hx' : c'.get? field = .ok x') :
    a.newValue layout x = a.newValue layout x' := by
  have hmem : a ∈ as := List.mem_of_find?_eq_some ha
  have htarget : a.target layout.fields = field := by simpa using List.find?_some ha
  rcases get?_rel_of_blank_eq h.agreeApart.blank_eq field with
    ⟨fault, herr, -⟩ | ⟨y, y', hy, hy', -, hnone⟩
  · rw [hx] at herr
    cases herr
  · obtain rfl : x = y := Except.ok.inj (hx.symm.trans hy)
    obtain rfl : x' = y' := Except.ok.inj (hx'.symm.trans hy')
    -- Either both containers have the field or neither has.
    cases x with
    | none => rw [hnone.mp rfl]
    | some v =>
      cases x' with
      | none => rw [hnone.mpr rfl]
      | some w =>
        subst htarget
        cases hsubs : a.subs? with
        | none =>
          obtain ⟨s, hs⟩ := exists_text_of_subs?_eq_none layout hsubs
          rw [hs, hs, Layout.stringLike_congr (h.texts a hmem hsubs v w hx hx') s]
        | some subs =>
          obtain rfl := eq_paths_of_subs?_eq_some hsubs
          rcases h.paths subs (findSome?_subs?_of_firstOn? ha) v w hx hx' with rfl | hsame
          · rfl
          · exact newValue_paths_congr hsame

/-- **Alike containers become equal,** or the actions fail on both in the same way. -/
theorem Alike.applyAllTo_eq {as : List Action} (hc : c.Ordered) (hc' : c'.Ordered)
    (h : Alike layout as c c') :
    applyAllTo layout as c = applyAllTo layout as c' :=
  applyAllTo_eq_of_blank_eq (Finset.Subset.refl _) hc hc' h.agreeApart.blank_eq
    fun _ _ _ ha _ _ hx hx' ↦ h.newValue_eq ha hx hx'

theorem applyAll_eq_of_alike {as : List Action} {entry entry' : Json} (hentry : entry.Ordered)
    (hentry' : entry'.Ordered) (hc : layout.container entry = .ok c)
    (hc' : layout.container entry' = .ok c') (h : Alike layout as c c') :
    applyAll layout as entry = applyAll layout as entry' := by
  have hord : c.Ordered := Layout.ordered_of_container hentry hc
  have hord' : c'.Ordered := Layout.ordered_of_container hentry' hc'
  rw [applyAll_eq hc, applyAll_eq hc', h.applyAllTo_eq hord hord']

end Action

namespace Record

variable {t : Table}

/-! ## Records with the same outcomes -/

/-- Two entries that are stored under one key with one outcome, if they have an outcome. -/
def SameOutcome (t : Table) (e e' : String × Json) : Prop :=
  t.target e.1 = t.target e'.1 ∧ ∀ v, t.outcome e.1 e.2 = .ok v ↔ t.outcome e'.1 e'.2 = .ok v

theorem SameOutcome.symm {e e' : String × Json} (h : SameOutcome t e e') : SameOutcome t e' e :=
  ⟨h.1.symm, fun v ↦ (h.2 v).symm⟩

theorem applyRules_of_sameOutcome {r r' o : Record} (hr : r.Ordered) (hr' : r'.Ordered)
    (hinj : Set.InjOn t.target {k | k ∈ r.keys}) (hinj' : Set.InjOn t.target {k | k ∈ r'.keys})
    (h : ∀ e ∈ r, ∃ e' ∈ r', SameOutcome t e e') (h' : ∀ e' ∈ r', ∃ e ∈ r, SameOutcome t e' e)
    (ho : (applyRules t r).1 = .ok o) : (applyRules t r').1 = .ok o := by
  obtain ⟨hok, hord, hget⟩ := (applyRules_eq_ok_iff hr hinj).mp ho
  refine (applyRules_eq_ok_iff hr' hinj').mpr ⟨fun e' he' ↦ ?_, hord, fun c v ↦ ?_⟩
  · obtain ⟨e, he, hsame⟩ := h' e' he'
    obtain ⟨v, hv⟩ := hok e he
    exact ⟨v, (hsame.2 v).mpr hv⟩
  · rw [hget]
    constructor
    · rintro ⟨e, he, rfl, hv⟩
      obtain ⟨e', he', hsame⟩ := h e he
      exact ⟨e', he', hsame.1.symm, (hsame.2 v).mp hv⟩
    · rintro ⟨e', he', rfl, hv⟩
      obtain ⟨e, he, hsame⟩ := h' e' he'
      exact ⟨e, he, hsame.1.symm, (hsame.2 v).mp hv⟩

/-! ## Records of different hosts -/

/-- Two entries with their keys that differ by host only. -/
inductive AlikeEntry (t : Table) : String × Json → String × Json → Prop
  /-- No rule matches the key, and the entries are the same. -/
  | untouched {key : String} {entry : Json} (hrule : t.rule? key = none) :
      AlikeEntry t (key, entry) (key, entry)
  /-- One rule matches both keys, and its actions make the entries equal. -/
  | amended {key key' : String} {entry entry' : Json} {rule : Rule} {c c' : Container}
      (hrule : t.rule? key = some rule) (hrule' : t.rule? key' = some rule)
      (hc : t.layout.container entry = .ok c) (hc' : t.layout.container entry' = .ok c')
      (halike : Action.Alike t.layout rule.actions c c') :
      AlikeEntry t (key, entry) (key', entry')

/-- Two records that differ by host only: the map takes the keys of the one to the keys of the
other, and their entries differ by host only. -/
structure AlikeBy (t : Table) (σ : String → String) (r r' : Record) : Prop where
  bijOn : Set.BijOn σ {k | k ∈ r.keys} {k | k ∈ r'.keys}
  entries : ∀ k entry entry', Keyed.get? r k = some entry → Keyed.get? r' (σ k) = some entry' →
    AlikeEntry t (k, entry) (σ k, entry')

theorem AlikeEntry.applyAll_eq {e e' : String × Json} (he : e.2.Ordered) (he' : e'.2.Ordered)
    (h : AlikeEntry t e e') {rule : Rule} (hrule : t.rule? e.1 = some rule) :
    Action.applyAll t.layout rule.actions e.2 = Action.applyAll t.layout rule.actions e'.2 := by
  cases h with
  | untouched => rfl
  | amended hrule₁ _ hc hc' halike =>
    obtain rfl := Option.some.inj (hrule.symm.trans hrule₁)
    exact Action.applyAll_eq_of_alike he he' hc hc' halike

theorem AlikeEntry.sameOutcome {e e' : String × Json} (he : e.2.Ordered) (he' : e'.2.Ordered)
    (h : AlikeEntry t e e') : SameOutcome t e e' := by
  have happly : ∀ rule, t.rule? e.1 = some rule → Action.applyAll t.layout rule.actions e.2
      = Action.applyAll t.layout rule.actions e'.2 := fun _ ↦ h.applyAll_eq he he'
  cases h with
  | untouched => exact ⟨rfl, fun v ↦ Iff.rfl⟩
  | amended hrule hrule' =>
    refine ⟨?_, fun v ↦ ?_⟩
    · rw [Table.target_of_rule? hrule, Table.target_of_rule? hrule']
    · rw [Table.outcome_eq_ok_iff_of_rule? hrule, Table.outcome_eq_ok_iff_of_rule? hrule',
        happly _ hrule]

theorem AlikeBy.exists_right {σ : String → String} {r r' : Record} (hr : r.Ordered)
    (h : AlikeBy t σ r r') {e : String × Json} (he : e ∈ r) :
    ∃ e' ∈ r', AlikeEntry t e e' := by
  obtain ⟨entry', hget'⟩ := Keyed.mem_keys_iff.mp (h.bijOn.mapsTo (List.mem_map_of_mem he))
  exact ⟨(σ e.1, entry'), Keyed.mem_of_get? hget',
    h.entries e.1 e.2 entry' (Keyed.get?_of_mem hr he) hget'⟩

theorem AlikeBy.exists_left {σ : String → String} {r r' : Record} (hr' : r'.Ordered)
    (h : AlikeBy t σ r r') {e' : String × Json} (he' : e' ∈ r') :
    ∃ e ∈ r, AlikeEntry t e e' := by
  obtain ⟨k, hk, hσ⟩ := h.bijOn.surjOn (List.mem_map_of_mem (f := Prod.fst) he')
  obtain ⟨entry, hget⟩ := Keyed.mem_keys_iff.mp hk
  have hget' : Keyed.get? r' (σ k) = some e'.2 := hσ ▸ Keyed.get?_of_mem hr' he'
  refine ⟨(k, entry), Keyed.mem_of_get? hget, ?_⟩
  have hentry := h.entries k entry e'.2 hget hget'
  rwa [hσ] at hentry

private theorem toOption_normalize {text : String} {r : Record} (h : decode text = .ok r) :
    (normalize t text).1.toOption = (applyRules t r).1.toOption.map Record.text := by
  rw [normalize_of_decode h]
  cases (applyRules t r).1 <;> rfl

/-- **Host independence.** Two records that differ by host only, and in which no two keys fall
together, have one output or none; so have all texts of them. An entry fails for the same reason as
its counterpart. -/
theorem applyRules_of_alikeBy (t : Table) {r r' : Record} (hr : (Json.obj r).Ordered)
    (hr' : (Json.obj r').Ordered) (hinj : Set.InjOn t.target {k | k ∈ r.keys})
    (hinj' : Set.InjOn t.target {k | k ∈ r'.keys}) {σ : String → String}
    (h : AlikeBy t σ r r') :
    (applyRules t r).1.toOption = (applyRules t r').1.toOption ∧
    (∀ text text', decode text = .ok r → decode text' = .ok r' →
      (normalize t text).1.toOption = (normalize t text').1.toOption) ∧
    ∀ k entry entry' rule, Keyed.get? r k = some entry → Keyed.get? r' (σ k) = some entry' →
      t.rule? k = some rule → Action.applyAll t.layout rule.actions entry
        = Action.applyAll t.layout rule.actions entry' := by
  rw [Json.Ordered, Json.orderedMembers_iff] at hr hr'
  -- Only the outcomes matter from here on, not in which order the two runs come to them.
  have hright : ∀ e ∈ r, ∃ e' ∈ r', SameOutcome t e e' := by
    intro e he
    obtain ⟨e', he', halike⟩ := h.exists_right hr.1 he
    exact ⟨e', he', halike.sameOutcome (hr.2 e he) (hr'.2 e' he')⟩
  have hleft : ∀ e' ∈ r', ∃ e ∈ r, SameOutcome t e' e := by
    intro e' he'
    obtain ⟨e, he, halike⟩ := h.exists_left hr'.1 he'
    exact ⟨e, he, (halike.sameOutcome (hr.2 e he) (hr'.2 e' he')).symm⟩
  have hrules : (applyRules t r).1.toOption = (applyRules t r').1.toOption := by
    refine Option.ext fun o ↦ ?_
    rw [toOption_eq_some_iff, toOption_eq_some_iff]
    exact ⟨applyRules_of_sameOutcome hr.1 hr'.1 hinj hinj' hright hleft,
      applyRules_of_sameOutcome hr'.1 hr.1 hinj' hinj hleft hright⟩
  refine ⟨hrules, fun text text' htext htext' ↦ ?_, fun k entry entry' rule hk hk' hrule ↦ ?_⟩
  · rw [toOption_normalize htext, toOption_normalize htext', hrules]
  · exact (h.entries k entry entry' hk hk').applyAll_eq (hr.2 _ (Keyed.mem_of_get? hk))
      (hr'.2 _ (Keyed.mem_of_get? hk')) hrule

/-- The key, the path and one link of a device differ between two hosts, and the device comes before
another one on the first host and after it on the second. -/
theorem applyRules_of_alikeBy_reordered :
    let link : Substitution := ⟨⟨"p", Expr.isMatch (.chars (.single 'p'))⟩, "l"⟩
    let rule : Rule := ⟨⟨"h", Expr.isMatch (.chars (.single 'h'))⟩, "d",
      [.devpath "x", .paths [link]]⟩
    let t : Table := {
      name := "t"
      layout := { encoding := .plain, fields := {} }
      rules := [rule] }
    let entry (path link : String) : Json :=
      .obj [("DEVPATH", .str path), ("PATHS", .arr [.str link])]
    let r : Record := [("h", entry "y" "p1"), ("m", .null)]
    let r' : Record := [("m", .null), ("xh", entry "z" "p2")]
    ∃ σ, AlikeBy t σ r r' ∧ Set.InjOn t.target {k | k ∈ r.keys} ∧
      Set.InjOn t.target {k | k ∈ r'.keys} ∧ (Json.obj r).Ordered ∧ (Json.obj r').Ordered ∧
      (applyRules t r).1.toOption = (applyRules t r').1.toOption := by
  intro link rule t entry r r'
  have hh : t.rule? "h" = some rule := rfl
  have hxh : t.rule? "xh" = some rule := rfl
  have hm : t.rule? "m" = none := rfl
  have hkeys : {k | k ∈ r.keys} = {"h", "m"} := by
    ext k
    simp [r]
  have hkeys' : {k | k ∈ r'.keys} = {"m", "xh"} := by
    ext k
    simp [r']
  have hinj : Set.InjOn t.target {k | k ∈ r.keys} := by
    rw [hkeys]
    simp [Set.InjOn, Table.target, hh, hm, rule]
  have hinj' : Set.InjOn t.target {k | k ∈ r'.keys} := by
    rw [hkeys']
    simp [Set.InjOn, Table.target, hxh, hm, rule]
  have hr : (Json.obj r).Ordered := by decide +kernel
  have hr' : (Json.obj r').Ordered := by decide +kernel
  have hpath : Json.SamePaths [link] (.arr [.str "p1"]) (.arr [.str "p2"]) := by
    refine ⟨rfl, _, _, rfl, rfl, .cons ⟨rfl, "p1", "p2", rfl, rfl, rfl⟩ .nil⟩
  have halike : Action.Alike t.layout rule.actions
      (.members [("DEVPATH", .str "y"), ("PATHS", .arr [.str "p1"])])
      (.members [("DEVPATH", .str "z"), ("PATHS", .arr [.str "p2"])]) := by
    refine ⟨?_, ?_, ?_⟩
    · rintro (_ | _ | i)
      · exact .inr ⟨"DEVPATH", by decide, _, _, rfl, rfl⟩
      · exact .inr ⟨"PATHS", by decide, _, _, rfl, rfl⟩
      · exact .inl rfl
    · intro a ha' hsubs v w hv hw
      rcases List.mem_cons.mp ha' with rfl | ha'
      · rw [← Option.some.inj (Except.ok.inj hv), ← Option.some.inj (Except.ok.inj hw)]
        rfl
      · rw [List.mem_singleton.mp ha'] at hsubs
        cases hsubs
    · intro subs hsubs v w hv hw
      rw [← Option.some.inj hsubs, ← Option.some.inj (Except.ok.inj hv),
        ← Option.some.inj (Except.ok.inj hw)]
      exact .inr hpath
  have h : AlikeBy t (fun k ↦ if k = "h" then "xh" else k) r r' := by
    refine ⟨⟨?_, ?_, ?_⟩, ?_⟩
    · rw [hkeys, hkeys']
      rintro k (rfl | rfl)
      · exact .inr rfl
      · exact .inl rfl
    · rw [hkeys]
      simp [Set.InjOn]
    · rw [hkeys, hkeys']
      rintro k (rfl | rfl)
      · exact ⟨"m", .inr rfl, rfl⟩
      · exact ⟨"h", .inl rfl, rfl⟩
    · intro k e e' hk hk'
      have hmem : k ∈ ({"h", "m"} : Set String) := hkeys ▸ Keyed.mem_keys_iff.mpr ⟨e, hk⟩
      rcases hmem with rfl | rfl
      · obtain rfl := Option.some.inj hk
        obtain rfl := Option.some.inj hk'
        exact .amended hh hxh rfl rfl halike
      · obtain rfl := Option.some.inj hk
        obtain rfl := Option.some.inj hk'
        exact .untouched hm
  exact ⟨_, h, hinj, hinj', hr, hr', (applyRules_of_alikeBy t hr hr' hinj hinj' h).1⟩

end Record

end DeviceSnapshot
