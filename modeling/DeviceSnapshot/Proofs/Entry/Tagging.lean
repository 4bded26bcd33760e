import DeviceSnapshot.Proofs.Entry.Encodings
import DeviceSnapshot.Proofs.Entry.Field

/-!
# Entries that are tagged at every level

In the tagged encoding every text, every list and every group of fields stands under its tag. An
entry that is encoded like this throughout need not stay so. An action decides from the old value
whether to wrap the new one, and it looks for its own kind of tag only: a text is wrapped where a
wrapped text was, and where nothing was, but over a list or a group of fields it is written bare.
Such an action displaces a value (`Action.Displaces`).

Whether an action displaces a value can be told from the entry before the rule runs. With distinct
field names no other kind of action touches the field, and a text that is written keeps the form of
what it replaces, so each step leaves the displacing actions as they are
(`Action.displaces_iff_of_applyTo`). Along a run every value is therefore fully tagged or a bare
text under a displaced name (`Action.taggedBut_of_applyAllTo`), and an entry stays fully tagged
exactly if no action displaces a value (`Rule.fullyTagged_amend_iff`).
-/

namespace DeviceSnapshot

namespace Json

/-- Every text, every list and every group of fields in the value stands under its tag. -/
inductive FullyTagged : Json → Prop where
  | text (s : String) : FullyTagged (.wrap "String" (.str s))
  | list {items : List Json} (h : ∀ v ∈ items, FullyTagged v) :
      FullyTagged (.wrap "Array" (.arr items))
  | fields {fields : List (String × Json)} (h : ∀ e ∈ fields, FullyTagged e.2) :
      FullyTagged (.ofFields fields)

variable {v : Json} {s : String} {items : List Json}

theorem fullyTagged_iff : v.FullyTagged ↔ (∃ s, v = .wrap "String" (.str s)) ∨
    (∃ items, v = .wrap "Array" (.arr items) ∧ ∀ w ∈ items, w.FullyTagged) ∨
    ∃ fields, v = .ofFields fields ∧ ∀ e ∈ fields, e.2.FullyTagged := by
  constructor
  · rintro (s | h | h)
    · exact .inl ⟨s, rfl⟩
    · exact .inr (.inl ⟨_, rfl, h⟩)
    · exact .inr (.inr ⟨_, rfl, h⟩)
  · rintro (⟨s, rfl⟩ | ⟨items, rfl, h⟩ | ⟨fields, rfl, h⟩)
    · exact .text s
    · exact .list h
    · exact .fields h

theorem not_fullyTagged_str (s : String) : ¬FullyTagged (.str s) := by
  rw [fullyTagged_iff]
  rintro (⟨s', h⟩ | ⟨items, h, -⟩ | ⟨fields, h, -⟩) <;> cases h

theorem FullyTagged.eq_wrap_of_text? (hv : v.FullyTagged) (h : v.text? = some s) :
    v = .wrap "String" (.str s) := by
  rcases eq_of_text?_eq_some h with rfl | rfl
  · exact absurd hv (not_fullyTagged_str s)
  · rfl

theorem FullyTagged.of_list?_eq_some (hv : v.FullyTagged) (h : v.list? = some items) :
    v = .wrap "Array" (.arr items) ∧ ∀ w ∈ items, w.FullyTagged := by
  rcases fullyTagged_iff.mp hv with ⟨s, rfl⟩ | ⟨items', rfl, hitems⟩ | ⟨fields, rfl, -⟩
  · cases h
  · cases h
    exact ⟨rfl, hitems⟩
  · cases h

theorem field_injective : Function.Injective field := by
  rintro ⟨name, v⟩ ⟨name', v'⟩ h
  cases h
  rfl

theorem ofFields_injective : Function.Injective ofFields := by
  intro fields fields' h
  simp only [ofFields, wrap, obj.injEq, List.cons.injEq, Prod.mk.injEq, arr.injEq, true_and,
    and_true] at h
  exact List.map_injective_iff.mpr field_injective h

end Json

open Json

namespace Action

variable {layout : Layout} {fields : List (String × Json)} {a b : Action} {as : List Action}
  {c c' : Container} {name : String} {bare : String → Prop}

/-! ## What an action writes -/

theorem fullyTagged_of_paths (hl : layout.encoding = .tagged) {subs : List Substitution}
    {x : Option Json} {v : Json} (hx : ∀ w, x = some w → w.FullyTagged)
    (h : newValue layout x (.paths subs) = .ok v) : v.FullyTagged := by
  rcases x with _ | w
  · obtain rfl : .wrap "Array" (.arr []) = v := by
      rw [← Except.ok.inj h, Layout.listLike, if_pos (by simp [Layout.wraps, hl])]
    exact .list fun w hw ↦ absurd hw List.not_mem_nil
  · obtain ⟨⟨items, hlist, htexts⟩, rfl⟩ := of_newValue_paths_eq_ok h
    obtain ⟨rfl, hitems⟩ := (hx w rfl).of_list?_eq_some hlist
    refine .list fun item' hitem' ↦ ?_
    obtain ⟨item, hitem, rfl⟩ := List.mem_map.mp hitem'
    obtain ⟨path, hpath⟩ := htexts item hitem
    rw [(hitems item hitem).eq_wrap_of_text? hpath]
    exact .text _

/-- The action writes a text over a value that is no wrapped text. -/
def Displaces (layout : Layout) (fields : List (String × Json)) (a : Action) : Prop :=
  a.subs? = none ∧ ∃ v, Keyed.get? fields (a.target layout.fields) = some v ∧
    v.tagged? "String" = none

theorem displaces_iff (hl : layout.encoding = .tagged) : a.Displaces layout fields ↔
    a.subs? = none ∧
      layout.wraps "String" (Keyed.get? fields (a.target layout.fields)) = false := by
  refine and_congr_right fun _ ↦ ?_
  rcases Keyed.get? fields (a.target layout.fields) with _ | v
  · simp [Layout.wraps, hl]
  · simp [Layout.wraps]

/-! ## One action -/

/-- **What an action does to fields when it succeeds.** -/
theorem of_applyTo_fields (h : a.applyTo layout (.pairs (fields.map field)) = .ok c') :
    ∃ v fields', a.newValue layout (Keyed.get? fields (a.target layout.fields)) = .ok v ∧
      c' = .pairs (fields'.map field) ∧
      (∀ e ∈ fields', e = (a.target layout.fields, v) ∨ e ∈ fields) ∧
      Keyed.get? fields' (a.target layout.fields) = some v ∧
      ∀ name, name ≠ a.target layout.fields →
        Keyed.get? fields' name = Keyed.get? fields name := by
  obtain ⟨x, v, hx, hv, hup⟩ := applyTo_eq_ok_iff.mp h
  rw [Container.get?, Pairs.get?_map_field] at hx
  obtain ⟨qs, hqs, rfl⟩ := Container.upsert_pairs_eq_ok hup
  obtain ⟨fields', rfl, -⟩ := Pairs.of_upsert_map_field hqs
  refine ⟨v, fields', Except.ok.inj hx ▸ hv, rfl, fun e he ↦ ?_, ?_, fun name hname ↦ ?_⟩
  · refine (Pairs.mem_of_mem_upsert hqs (List.mem_map_of_mem he)).imp ?_ ?_
    · exact fun heq ↦ field_injective heq
    · exact (List.mem_map_of_injective field_injective).mp
  · have hself := Pairs.get?_upsert_self hqs
    rw [Pairs.get?_map_field] at hself
    exact Except.ok.inj hself
  · have hother := Pairs.get?_upsert_of_ne hqs hname
    rw [Pairs.get?_map_field, Pairs.get?_map_field] at hother
    exact Except.ok.inj hother

/-- An action does not change which actions displace a value: what it writes has the form of what it
replaces, and no other kind of action reads its field. -/
theorem displaces_iff_of_applyTo (hl : layout.encoding = .tagged) (hf : layout.fields.Distinct)
    {fields' : List (String × Json)}
    (h : a.applyTo layout (.pairs (fields.map field)) = .ok (.pairs (fields'.map field)))
    (b : Action) : b.Displaces layout fields' ↔ b.Displaces layout fields := by
  obtain ⟨v, fields₁, hv, heq, -, hself, hother⟩ := of_applyTo_fields h
  obtain rfl : fields' = fields₁ :=
    List.map_injective_iff.mpr field_injective (Container.pairs.inj heq)
  rw [displaces_iff hl, displaces_iff hl]
  refine and_congr_right fun hb ↦ ?_
  by_cases hname : b.target layout.fields = a.target layout.fields
  · obtain ⟨s, hs⟩ := exists_text_of_subs?_eq_none layout (subs?_eq_none_of_target_eq hf hname hb)
    rw [hs] at hv
    rw [hname, hself, ← Except.ok.inj hv, Layout.wraps_stringLike]
  · rw [hother _ hname]

/-! ## A run of actions -/

/-- Every value is fully tagged, but under some names it may be a bare text. -/
def TaggedBut (bare : String → Prop) (fields : List (String × Json)) : Prop :=
  ∀ e ∈ fields, e.2.FullyTagged ∨ bare e.1 ∧ ∃ s, e.2 = .str s

/-- **One action.** -/
theorem taggedBut_of_applyTo (hl : layout.encoding = .tagged) (hpaths : ¬bare layout.fields.paths)
    (ha : a.Displaces layout fields → bare (a.target layout.fields))
    (hfields : TaggedBut bare fields)
    (h : a.applyTo layout (.pairs (fields.map field)) = .ok c') :
    ∃ fields', c' = .pairs (fields'.map field) ∧ TaggedBut bare fields' := by
  obtain ⟨v, fields', hv, rfl, hmem, -, -⟩ := of_applyTo_fields h
  refine ⟨fields', rfl, fun e he ↦ ?_⟩
  rcases hmem e he with rfl | hold
  · rcases hsubs : a.subs? with _ | subs
    · obtain ⟨s, hs⟩ := exists_text_of_subs?_eq_none layout hsubs
      rw [hs, Layout.stringLike] at hv
      rw [← Except.ok.inj hv]
      split
      · exact .inl (.text s)
      · next hwraps =>
        rw [Bool.not_eq_true] at hwraps
        exact .inr ⟨ha ((displaces_iff hl).mpr ⟨hsubs, hwraps⟩), s, rfl⟩
    · obtain rfl := eq_paths_of_subs?_eq_some hsubs
      refine .inl (fullyTagged_of_paths hl (fun w hw ↦ ?_) hv)
      exact (hfields _ (Keyed.mem_of_get? hw)).resolve_right fun hbare ↦ hpaths hbare.1
  · exact hfields e hold

/-- **A run of actions.** A bare text comes in only where an action displaces a value. -/
theorem taggedBut_of_applyAllTo (hl : layout.encoding = .tagged) (hf : layout.fields.Distinct)
    (hpaths : ¬bare layout.fields.paths)
    (has : ∀ a ∈ as, a.Displaces layout fields → bare (a.target layout.fields))
    (hfields : TaggedBut bare fields)
    (h : applyAllTo layout as (.pairs (fields.map field)) = .ok c') :
    ∃ fields', c' = .pairs (fields'.map field) ∧ TaggedBut bare fields' ∧
      ∀ b : Action, b.Displaces layout fields' ↔ b.Displaces layout fields := by
  induction as generalizing fields with
  | nil => exact ⟨fields, (Except.ok.inj h).symm, hfields, fun b ↦ Iff.rfl⟩
  | cons a as ih =>
    obtain ⟨d, hd, h⟩ := applyAllTo_cons_eq_ok_iff.mp h
    obtain ⟨fields₁, rfl, hfields₁⟩ :=
      taggedBut_of_applyTo hl hpaths (has a List.mem_cons_self) hfields hd
    have hsame := displaces_iff_of_applyTo hl hf hd
    have hrest : ∀ b ∈ as, b.Displaces layout fields₁ → bare (b.target layout.fields) :=
      fun b hb hdis ↦ has b (List.mem_cons_of_mem a hb) ((hsame b).mp hdis)
    obtain ⟨fields', hc', htagged, hsame'⟩ := ih hrest hfields₁ h
    exact ⟨fields', hc', htagged, fun b ↦ (hsame' b).trans (hsame b)⟩

/-- An action displaces the value under a name. -/
def Displaced (layout : Layout) (as : List Action) (fields : List (String × Json))
    (name : String) : Prop :=
  ∃ a ∈ as, a.target layout.fields = name ∧ a.Displaces layout fields

theorem not_displaced_paths (hf : layout.fields.Distinct) :
    ¬Displaced layout as fields layout.fields.paths := by
  rintro ⟨a, -, hname, hsubs, -⟩
  cases subs?_eq_none_of_target_eq hf (b := .paths []) hname hsubs

/-- A field that only texts are written to reads as a text after a run, if an action writes one or
it read as a text before. -/
theorem exists_text_of_applyAllTo
    (hname : ∀ b : Action, b.target layout.fields = name → b.subs? = none)
    (hwritten : (∃ a ∈ as, a.target layout.fields = name) ∨
      ∃ v s, c.get? name = .ok (some v) ∧ v.text? = some s)
    (h : applyAllTo layout as c = .ok c') :
    ∃ v s, c'.get? name = .ok (some v) ∧ v.text? = some s := by
  induction as generalizing c with
  | nil =>
    rcases hwritten with ⟨a, ha, -⟩ | htext
    · exact absurd ha List.not_mem_nil
    · exact Except.ok.inj h ▸ htext
  | cons b as ih =>
    obtain ⟨d, hd, h⟩ := applyAllTo_cons_eq_ok_iff.mp h
    refine ih ?_ h
    by_cases hb : b.target layout.fields = name
    · obtain ⟨x, v, -, hv, hup⟩ := applyTo_eq_ok_iff.mp hd
      obtain ⟨s, hs⟩ := exists_text_of_subs?_eq_none layout (hname b hb)
      rw [hs] at hv
      refine .inr ⟨v, s, hb ▸ Container.get?_upsert_self hup, ?_⟩
      rw [← Except.ok.inj hv, Layout.text?_stringLike]
    · refine hwritten.imp ?_ ?_
      · rintro ⟨a, ha, hname⟩
        rcases List.mem_cons.mp ha with rfl | ha
        · exact absurd hname hb
        · exact ⟨a, ha, hname⟩
      · rintro ⟨v, s, hv, hs⟩
        exact ⟨v, s, (get?_applyTo_of_ne hd (Ne.symm hb)).trans hv, hs⟩

end Action

/-- **When an entry stays fully tagged.** A rule whose field names differ takes an entry of fully
tagged fields to an entry of fields. Each of their values is fully tagged, or it is a bare text that
was written over a list or a group of fields; so all of them are fully tagged exactly if no action
displaces a value. -/
theorem Rule.fullyTagged_amend_iff (layout : Layout) (hl : layout.encoding = .tagged)
    (hf : layout.fields.Distinct) (rule : Rule) (key : String) (fields : List (String × Json))
    (hfields : ∀ e ∈ fields, e.2.FullyTagged) (entry : Json)
    (h : rule.amend layout key (.ofFields fields) = .ok entry) :
    ∃ fields', entry = .ofFields fields' ∧
      (∀ e ∈ fields', e.2.FullyTagged ∨
        Action.Displaced layout rule.actions fields e.1 ∧ ∃ s, e.2 = .str s) ∧
      ((∀ e ∈ fields', e.2.FullyTagged) ↔ ∀ a ∈ rule.actions, ¬a.Displaces layout fields) := by
  have hcon : layout.container (.ofFields fields) = .ok (.pairs (fields.map field)) :=
    Layout.container_of_pairs? (Layout.pairs?_eq_some_iff.mpr ⟨hl, rfl⟩)
  rw [Rule.amend, mapError_eq_ok_iff, Action.applyAll_eq hcon, map_eq_ok_iff] at h
  obtain ⟨c', hrun, rfl⟩ := h
  obtain ⟨fields', rfl, htagged, hsame⟩ := Action.taggedBut_of_applyAllTo hl hf
    (Action.not_displaced_paths hf) (fun a ha hdis ↦ ⟨a, ha, rfl, hdis⟩)
    (fun e he ↦ .inl (hfields e he)) hrun
  refine ⟨fields', rfl, htagged, fun hall a ha hdis ↦ ?_, fun hnone e he ↦ ?_⟩
  · -- The field reads as a text afterwards, which is wrapped if it is fully tagged.
    have htexts : ∀ b : Action,
        b.target layout.fields = a.target layout.fields → b.subs? = none :=
      fun b hb ↦ Action.subs?_eq_none_of_target_eq hf hb.symm hdis.1
    obtain ⟨v, s, hv, hs⟩ := Action.exists_text_of_applyAllTo htexts (.inl ⟨a, ha, rfl⟩) hrun
    obtain ⟨-, w, hw, hnowrap⟩ := (hsame a).mpr hdis
    rw [Container.get?, Pairs.get?_map_field, hw] at hv
    obtain rfl := Option.some.inj (Except.ok.inj hv)
    have hwrap : w = .wrap "String" (.str s) :=
      (hall _ (Keyed.mem_of_get? hw)).eq_wrap_of_text? hs
    rw [hwrap] at hnowrap
    cases hnowrap
  · rcases htagged e he with hv | ⟨⟨a, ha, -, hdis⟩, -⟩
    · exact hv
    · exact absurd hdis (hnone a ha)

/-- The device path is a list, so its text is bare; the paths and the identifier stay tagged, and so
does a field that no action is on. -/
theorem Rule.fullyTagged_amend_mixed :
    let layout : Layout := ⟨.tagged, {}⟩
    let j : Pattern := ⟨"j", Expr.isMatch (.chars (.single 'j'))⟩
    let rule : Rule := ⟨j, "j", [.paths [⟨j, "x"⟩], .devpath "y", .dmUuid "z"]⟩
    let text (s : String) := Json.wrap "String" (.str s)
    let fields : List (String × Json) := [("DEVPATH", .wrap "Array" (.arr [text "old"])),
      ("DM_UUID", text "old"), ("PATHS", .wrap "Array" (.arr [text "j", text "o"])),
      ("N", .ofFields [("DEVPATH", text "old")])]
    let fields' : List (String × Json) := [("DEVPATH", .str "y"), ("DM_UUID", text "z"),
      ("PATHS", .wrap "Array" (.arr [text "x", text "o"])),
      ("N", .ofFields [("DEVPATH", text "old")])]
    layout.encoding = .tagged ∧ layout.fields.Distinct ∧ (∀ e ∈ fields, e.2.FullyTagged) ∧
      rule.amend layout "j" (.ofFields fields) = .ok (.ofFields fields') ∧
      (∀ e ∈ fields', e.2.FullyTagged ∨
        Action.Displaced layout rule.actions fields e.1 ∧ ∃ s, e.2 = .str s) ∧
      ¬∀ e ∈ fields', e.2.FullyTagged := by
  intro layout j rule text fields fields'
  have hf : layout.fields.Distinct := by decide +kernel
  have htext : ∀ s, (text s).FullyTagged := .text
  have hfields : ∀ e ∈ fields, e.2.FullyTagged := by
    simp only [fields, List.forall_mem_cons, List.not_mem_nil, false_implies, implies_true,
      and_true]
    refine ⟨.list ?_, htext _, .list ?_, .fields ?_⟩ <;> simp [htext]
  have hrun : rule.amend layout "j" (.ofFields fields) = .ok (.ofFields fields') := by
    subst fields fields' text rule j layout
    with_unfolding_all rfl
  have hdis : (Action.devpath "y").Displaces layout fields := ⟨rfl, _, rfl, rfl⟩
  obtain ⟨fields₁, heq, htagged, hiff⟩ :=
    Rule.fullyTagged_amend_iff layout rfl hf rule "j" fields hfields _ hrun
  obtain rfl : fields' = fields₁ := ofFields_injective heq
  refine ⟨rfl, hf, hfields, hrun, htagged, fun hall ↦ ?_⟩
  exact hiff.mp hall (.devpath "y") (List.mem_cons_of_mem _ List.mem_cons_self) hdis

/-- **An entry does not stay fully tagged.** The device path is an empty list, the identifier an
empty group of fields. Both are overwritten by bare texts. -/
theorem Rule.not_fullyTagged_amend :
    let layout : Layout := ⟨.tagged, {}⟩
    let rule : Rule := ⟨⟨"n", Expr.isMatch (.chars (.single 'n'))⟩, "n",
      [.devpath "/d", .dmUuid "u"]⟩
    let fields : List (String × Json) :=
      [("DEVPATH", .wrap "Array" (.arr [])), ("DM_UUID", .ofFields [])]
    let entry' := Json.ofFields [("DEVPATH", .str "/d"), ("DM_UUID", .str "u")]
    layout.encoding = .tagged ∧ layout.fields.Distinct ∧ (∀ e ∈ fields, e.2.FullyTagged) ∧
      rule.amend layout "n" (.ofFields fields) = .ok entry' ∧
      ¬∃ fields', entry' = .ofFields fields' ∧ ∀ e ∈ fields', e.2.FullyTagged := by
  intro layout rule fields entry'
  refine ⟨rfl, by decide +kernel, ?_, rfl, ?_⟩
  · simp only [fields, List.forall_mem_cons, List.not_mem_nil, false_implies, implies_true,
      and_true]
    exact ⟨.list (by simp), .fields (by simp)⟩
  · rintro ⟨fields', heq, hall⟩
    obtain rfl := ofFields_injective heq
    exact not_fullyTagged_str "/d" (hall _ List.mem_cons_self)

end DeviceSnapshot
