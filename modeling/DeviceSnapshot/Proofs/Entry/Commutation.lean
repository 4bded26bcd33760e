import DeviceSnapshot.Proofs.Entry.Apart

/-!
# Actions on different fields

Two actions on different fields may change places. Neither sees what the other does: an action reads
its own field only, and a write to another field shows in no read of it, also when the write has
appended a pair or replaced a value that the read passes. So whether an action succeeds, and with
what value, does not depend on the other one having run (`exists_applyTo_iff`).

The entries that come out are the same, with one exception. Two fields that a pairs container lacks
are appended in the order of the writes.
-/

namespace DeviceSnapshot

/-! ## Two writes -/

namespace Pairs

variable {name name' : String} {v w : Json} {i : Nat} {ps qs rs : List Json}

theorem upsert_of_get?_none (h : get? name i ps = .ok none) (v : Json) :
    upsert name v i ps = .ok (ps ++ [.arr [.str name, v]]) := by
  induction ps generalizing i with
  | nil => rfl
  | cons p ps ih =>
    rcases of_get?_cons_eq_ok h with ⟨u, -, heq⟩ | ⟨n, u, hn, rfl, hrest⟩
    · cases heq
    · rw [upsert_pair, if_neg hn, ih hrest]
      rfl

theorem upsert_comm (hne : name ≠ name') (hv : upsert name v i ps = .ok qs)
    (hw : upsert name' w i ps = .ok rs)
    (hthere : ¬(get? name i ps = .ok none ∧ get? name' i ps = .ok none)) :
    upsert name' w i qs = upsert name v i rs := by
  induction ps generalizing i qs rs with
  | nil => exact absurd ⟨rfl, rfl⟩ hthere
  | cons p ps ih =>
    -- Each of the writes ends at the first pair or passes it, and both cannot end there.
    rcases of_upsert_cons_eq_ok hv with ⟨u, rfl, rfl⟩ | ⟨n, u, qs', hn, rfl, hqs', rfl⟩
    · rcases of_upsert_cons_eq_ok hw with ⟨u', hp, -⟩ | ⟨n', u', rs', -, hp, hrs', rfl⟩
      · cases hp
        exact absurd rfl hne
      · rw [upsert_pair, if_neg hne, hrs', upsert_pair, if_pos rfl]
        rfl
    · rcases of_upsert_cons_eq_ok hw with ⟨u', hp, rfl⟩ | ⟨n', u', rs', hn', hp, hrs', rfl⟩
      · cases hp
        rw [upsert_pair, if_pos rfl, upsert_pair, if_neg hn, hqs']
        rfl
      · cases hp
        rw [get?_pair, get?_pair, if_neg hn, if_neg hn'] at hthere
        rw [upsert_pair, upsert_pair, if_neg hn, if_neg hn', ih hqs' hrs' hthere]

end Pairs

namespace Container

variable {c d d' : Container} {field field' : String} {v w : Json}

/-- **Writes to two fields may change places,** unless both are appended to pairs. -/
theorem upsert_comm (hne : field ≠ field') (hd : c.upsert field v = .ok d)
    (hd' : c.upsert field' w = .ok d')
    (hthere : ∀ ps, c = .pairs ps → ¬(c.get? field = .ok none ∧ c.get? field' = .ok none)) :
    d.upsert field' w = d'.upsert field v := by
  rcases c with ps | ms
  · obtain ⟨qs, hqs, rfl⟩ := upsert_pairs_eq_ok hd
    obtain ⟨rs, hrs, rfl⟩ := upsert_pairs_eq_ok hd'
    rw [upsert, upsert, Pairs.upsert_comm hne hqs hrs (hthere ps rfl)]
  · rw [← Except.ok.inj hd, ← Except.ok.inj hd', upsert, upsert, Keyed.insert_comm hne]

theorem upsert_pairs_of_get?_none {ps : List Json}
    (h : get? field (.pairs ps) = .ok none) (v : Json) :
    upsert field v (.pairs ps) = .ok (.pairs (ps ++ [.arr [.str field, v]])) := by
  rw [upsert, Pairs.upsert_of_get?_none h]
  rfl

end Container

/-! ## Two actions -/

namespace Action

variable {layout : Layout} {a b : Action} {c d d' e₁ e₂ : Container}

theorem exists_applyTo_eq_ok_iff : (∃ d, a.applyTo layout c = .ok d) ↔
    ∃ x v, c.get? (a.target layout.fields) = .ok x ∧ a.newValue layout x = .ok v := by
  constructor
  · rintro ⟨d, hd⟩
    obtain ⟨x, v, hx, hv, -⟩ := applyTo_eq_ok_iff.mp hd
    exact ⟨x, v, hx, hv⟩
  · rintro ⟨x, v, hx, hv⟩
    obtain ⟨d, hd⟩ := Container.upsert_of_get?_ok hx v
    exact ⟨d, applyTo_eq_ok_iff.mpr ⟨x, v, hx, hv, hd⟩⟩

/-- **An action does not see an action on another field.** -/
theorem exists_applyTo_iff (hne : a.target layout.fields ≠ b.target layout.fields)
    (hd : a.applyTo layout c = .ok d) :
    (∃ e₁, b.applyTo layout d = .ok e₁) ↔ ∃ d', b.applyTo layout c = .ok d' := by
  rw [exists_applyTo_eq_ok_iff, exists_applyTo_eq_ok_iff, get?_applyTo_of_ne hd hne.symm]

theorem applyTo_applyTo_eq_ok (hne : a.target layout.fields ≠ b.target layout.fields)
    (hd : a.applyTo layout c = .ok d) (he₁ : b.applyTo layout d = .ok e₁) :
    ∃ x y v w, c.get? (a.target layout.fields) = .ok x ∧ a.newValue layout x = .ok v ∧
      c.get? (b.target layout.fields) = .ok y ∧ b.newValue layout y = .ok w ∧
      c.upsert (a.target layout.fields) v = .ok d ∧
      d.upsert (b.target layout.fields) w = .ok e₁ := by
  obtain ⟨x, v, hx, hv, hup⟩ := applyTo_eq_ok_iff.mp hd
  obtain ⟨y, w, hy, hw, hup'⟩ := applyTo_eq_ok_iff.mp he₁
  rw [get?_applyTo_of_ne hd hne.symm] at hy
  exact ⟨x, y, v, w, hx, hv, hy, hw, hup, hup'⟩

theorem applyTo_comm_cases (hne : a.target layout.fields ≠ b.target layout.fields)
    (hd : a.applyTo layout c = .ok d) (he₁ : b.applyTo layout d = .ok e₁)
    (hd' : b.applyTo layout c = .ok d') (he₂ : a.applyTo layout d' = .ok e₂) :
    (∀ field, e₁.get? field = e₂.get? field) ∧
    ((∀ ps, c = .pairs ps → ¬(c.get? (a.target layout.fields) = .ok none ∧
        c.get? (b.target layout.fields) = .ok none)) → e₁ = e₂) ∧
    ∀ ps, c = .pairs ps → c.get? (a.target layout.fields) = .ok none →
      c.get? (b.target layout.fields) = .ok none → ∃ v w,
        e₁ = .pairs (ps ++ [.arr [.str (a.target layout.fields), v],
          .arr [.str (b.target layout.fields), w]]) ∧
        e₂ = .pairs (ps ++ [.arr [.str (b.target layout.fields), w],
          .arr [.str (a.target layout.fields), v]]) := by
  obtain ⟨x, y, v, w, hx, hv, hy, hw, hup, hup₁⟩ := applyTo_applyTo_eq_ok hne hd he₁
  -- In the other order the actions find the same values, so they write the same ones.
  obtain ⟨y', x', w', v', hy', hw', hx', hv', hup', hup₂⟩ :=
    applyTo_applyTo_eq_ok hne.symm hd' he₂
  obtain rfl : x = x' := Except.ok.inj (hx.symm.trans hx')
  obtain rfl : y = y' := Except.ok.inj (hy.symm.trans hy')
  obtain rfl : v = v' := Except.ok.inj (hv.symm.trans hv')
  obtain rfl : w = w' := Except.ok.inj (hw.symm.trans hw')
  refine ⟨fun field ↦ ?_, fun hthere ↦ ?_, ?_⟩
  · by_cases ha : field = a.target layout.fields
    · subst ha
      rw [Container.get?_upsert_of_ne hup₁ hne, Container.get?_upsert_self hup,
        Container.get?_upsert_self hup₂]
    · by_cases hb : field = b.target layout.fields
      · subst hb
        rw [Container.get?_upsert_self hup₁, Container.get?_upsert_of_ne hup₂ hne.symm,
          Container.get?_upsert_self hup']
      · rw [Container.get?_upsert_of_ne hup₁ hb, Container.get?_upsert_of_ne hup ha,
          Container.get?_upsert_of_ne hup₂ ha, Container.get?_upsert_of_ne hup' hb]
  · rw [Container.upsert_comm hne hup hup' hthere, hup₂] at hup₁
    exact (Except.ok.inj hup₁).symm
  · rintro ps rfl ha hb
    refine ⟨v, w, ?_, ?_⟩
    · have hb' := (Container.get?_upsert_of_ne hup hne.symm).trans hb
      rw [Container.upsert_pairs_of_get?_none ha] at hup
      obtain rfl := Except.ok.inj hup
      rw [Container.upsert_pairs_of_get?_none hb'] at hup₁
      rw [← Except.ok.inj hup₁, List.append_assoc, List.singleton_append]
    · have ha' := (Container.get?_upsert_of_ne hup' hne).trans ha
      rw [Container.upsert_pairs_of_get?_none hb] at hup'
      obtain rfl := Except.ok.inj hup'
      rw [Container.upsert_pairs_of_get?_none ha'] at hup₂
      rw [← Except.ok.inj hup₂, List.append_assoc, List.singleton_append]

end Action

/-! ## Entries -/

/-- The entry is a container of these pairs, and has neither of two fields. -/
def Layout.LacksBoth (layout : Layout) (e : Json) (field field' : String) (ps : List Json) : Prop :=
  layout.encoding = .tagged ∧ e = .obj [("Object", .arr ps)] ∧
    layout.get? e field = .ok none ∧ layout.get? e field' = .ok none

namespace Action

variable {layout : Layout} {e e' : Json} {a b : Action} {c : Container}

theorem apply_eq_ok_iff : a.apply layout e = .ok e' ↔
    ∃ c d, layout.container e = .ok c ∧ a.applyTo layout c = .ok d ∧ layout.Reads d ∧
      e' = d.toJson := by
  rcases hc : layout.container e with fault | c
  · have h : a.apply layout e = .error fault := by
      rw [apply, Layout.get?_eq, hc]
      rfl
    simp [h]
  · rw [apply_eq hc, map_eq_ok_iff]
    constructor
    · rintro ⟨d, hd, rfl⟩
      exact ⟨c, d, rfl, hd, (Layout.reads_of_container hc).applyTo hd, rfl⟩
    · rintro ⟨c', d, hc', hd, -, rfl⟩
      obtain rfl := Except.ok.inj hc'
      exact ⟨d, hd, rfl⟩

theorem apply_bind_apply_eq_ok_iff : (a.apply layout e >>= b.apply layout) = .ok e' ↔
    ∃ c d e₁, layout.container e = .ok c ∧ a.applyTo layout c = .ok d ∧
      b.applyTo layout d = .ok e₁ ∧ layout.Reads e₁ ∧ e' = e₁.toJson := by
  rw [bind_eq_ok_iff]
  constructor
  · rintro ⟨v, hv, he'⟩
    obtain ⟨c, d, hc, hd, hreads, rfl⟩ := apply_eq_ok_iff.mp hv
    obtain ⟨d', e₁, hd', he₁, hreads', rfl⟩ := apply_eq_ok_iff.mp he'
    obtain rfl : d = d' := Except.ok.inj (hreads.symm.trans hd')
    exact ⟨c, d, e₁, hc, hd, he₁, hreads', rfl⟩
  · rintro ⟨c, d, e₁, hc, hd, he₁, hreads', rfl⟩
    have hreads : layout.Reads d := (Layout.reads_of_container hc).applyTo hd
    exact ⟨d.toJson, apply_eq_ok_iff.mpr ⟨c, d, hc, hd, hreads, rfl⟩,
      apply_eq_ok_iff.mpr ⟨d, e₁, hreads, he₁, hreads', rfl⟩⟩

theorem exists_apply_bind_apply_iff (hne : a.target layout.fields ≠ b.target layout.fields) :
    (∃ e', (a.apply layout e >>= b.apply layout) = .ok e') ↔
      (∃ e', a.apply layout e = .ok e') ∧ ∃ e', b.apply layout e = .ok e' := by
  constructor
  · rintro ⟨e', he'⟩
    obtain ⟨c, d, e₁, hc, hd, he₁, -, -⟩ := apply_bind_apply_eq_ok_iff.mp he'
    obtain ⟨d', hd'⟩ := (exists_applyTo_iff hne hd).mp ⟨e₁, he₁⟩
    have hreads := Layout.reads_of_container hc
    exact ⟨⟨_, apply_eq_ok_iff.mpr ⟨c, d, hc, hd, hreads.applyTo hd, rfl⟩⟩,
      _, apply_eq_ok_iff.mpr ⟨c, d', hc, hd', hreads.applyTo hd', rfl⟩⟩
  · rintro ⟨⟨e₁, he₁⟩, e₂, he₂⟩
    obtain ⟨c, d, hc, hd, hreads, rfl⟩ := apply_eq_ok_iff.mp he₁
    obtain ⟨c', d', hc', hd', -, rfl⟩ := apply_eq_ok_iff.mp he₂
    obtain rfl : c = c' := Except.ok.inj (hc.symm.trans hc')
    obtain ⟨e', he'⟩ := (exists_applyTo_iff hne hd).mpr ⟨d', hd'⟩
    exact ⟨e'.toJson, apply_bind_apply_eq_ok_iff.mpr
      ⟨c, d, e', hc, hd, he', hreads.applyTo he', rfl⟩⟩

/-- **Actions on different fields commute.** In either order they succeed exactly when both succeed
on the entry as it is. All fields read the same then, and the entries are equal, except that two
fields that a pairs container lacks are appended in the order of the actions. -/
theorem apply_comm (layout : Layout) (e : Json) (a b : Action)
    (hne : a.target layout.fields ≠ b.target layout.fields) :
    ((∃ e', (a.apply layout e >>= b.apply layout) = .ok e') ↔
      (∃ e', a.apply layout e = .ok e') ∧ ∃ e', b.apply layout e = .ok e') ∧
    ((∃ e', (b.apply layout e >>= a.apply layout) = .ok e') ↔
      (∃ e', a.apply layout e = .ok e') ∧ ∃ e', b.apply layout e = .ok e') ∧
    ∀ e₁ e₂, (a.apply layout e >>= b.apply layout) = .ok e₁ →
      (b.apply layout e >>= a.apply layout) = .ok e₂ →
      (∀ field, layout.get? e₁ field = layout.get? e₂ field) ∧
      ((∀ ps, ¬layout.LacksBoth e (a.target layout.fields) (b.target layout.fields) ps) →
        e₁ = e₂) ∧
      ∀ ps, layout.LacksBoth e (a.target layout.fields) (b.target layout.fields) ps → ∃ v w,
        e₁ = .obj [("Object", .arr (ps ++ [.arr [.str (a.target layout.fields), v],
          .arr [.str (b.target layout.fields), w]]))] ∧
        e₂ = .obj [("Object", .arr (ps ++ [.arr [.str (b.target layout.fields), w],
          .arr [.str (a.target layout.fields), v]]))] := by
  refine ⟨exists_apply_bind_apply_iff hne,
    (exists_apply_bind_apply_iff hne.symm).trans and_comm, fun e₁ e₂ he₁ he₂ ↦ ?_⟩
  obtain ⟨c, d, c₁, hc, hd, hc₁, hreads₁, rfl⟩ := apply_bind_apply_eq_ok_iff.mp he₁
  obtain ⟨c', d', c₂, hc', hd', hc₂, hreads₂, rfl⟩ := apply_bind_apply_eq_ok_iff.mp he₂
  obtain rfl : c = c' := Except.ok.inj (hc.symm.trans hc')
  obtain ⟨hget, heq, happend⟩ := applyTo_comm_cases hne hd hc₁ hd' hc₂
  have hpairs : ∀ ps,
      c = .pairs ps ↔ layout.encoding = .tagged ∧ e = .obj [("Object", .arr ps)] := by
    intro ps
    rw [← Json.wrap, ← Layout.pairs?_eq_some_iff, ← Layout.container_eq_pairs_iff, hc,
      Except.ok.injEq]
  have hlacks : ∀ ps, layout.LacksBoth e (a.target layout.fields) (b.target layout.fields) ps ↔
      c = .pairs ps ∧ c.get? (a.target layout.fields) = .ok none ∧
        c.get? (b.target layout.fields) = .ok none := by
    intro ps
    rw [Layout.LacksBoth, Layout.get?_of_container hc, Layout.get?_of_container hc, hpairs,
      and_assoc]
  refine ⟨fun field ↦ ?_, fun hnot ↦ ?_, fun ps hps ↦ ?_⟩
  · rw [Layout.get?_of_container hreads₁, Layout.get?_of_container hreads₂, hget field]
  · rw [heq fun ps hps hboth ↦ hnot ps ((hlacks ps).mpr ⟨hps, hboth⟩)]
  · obtain ⟨hps, ha, hb⟩ := (hlacks ps).mp hps
    obtain ⟨v, w, rfl, rfl⟩ := happend ps hps ha hb
    exact ⟨v, w, rfl, rfl⟩

/-- Two texts for fields that the first entry lacks come in the order of the actions; where one of
the fields is there, the order does not show. -/
theorem apply_comm_appended :
    let layout : Layout := ⟨.tagged, {}⟩
    let pair (name s : String) := Json.arr [.str name, .wrap "String" (.str s)]
    let entry (ps : List Json) := Json.obj [("Object", .arr ps)]
    let both (a b : Action) (e : Json) := a.apply layout e >>= b.apply layout
    let a : Action := .devpath "p"
    let b : Action := .dmUuid "u"
    a.target layout.fields ≠ b.target layout.fields ∧
      both a b (entry []) = .ok (entry [pair "DEVPATH" "p", pair "DM_UUID" "u"]) ∧
      both b a (entry []) = .ok (entry [pair "DM_UUID" "u", pair "DEVPATH" "p"]) ∧
      (∀ field, layout.get? (entry [pair "DEVPATH" "p", pair "DM_UUID" "u"]) field
        = layout.get? (entry [pair "DM_UUID" "u", pair "DEVPATH" "p"]) field) ∧
      ∃ e', both a b (entry [pair "DM_UUID" "x"]) = .ok e' ∧
        both b a (entry [pair "DM_UUID" "x"]) = .ok e' := by
  intro layout pair entry both a b
  have hne : a.target layout.fields ≠ b.target layout.fields := by decide
  have hab : both a b (entry []) = .ok (entry [pair "DEVPATH" "p", pair "DM_UUID" "u"]) := rfl
  have hba : both b a (entry []) = .ok (entry [pair "DM_UUID" "u", pair "DEVPATH" "p"]) := rfl
  obtain ⟨hget, -, -⟩ := (apply_comm layout (entry []) a b hne).2.2 _ _ hab hba
  obtain ⟨hfirst, hsecond, hboth⟩ := apply_comm layout (entry [pair "DM_UUID" "x"]) a b hne
  obtain ⟨e₁, he₁⟩ := hfirst.mpr ⟨⟨_, rfl⟩, _, rfl⟩
  obtain ⟨e₂, he₂⟩ := hsecond.mpr ⟨⟨_, rfl⟩, _, rfl⟩
  have hthere : ∀ ps, ¬layout.LacksBoth (entry [pair "DM_UUID" "x"]) (a.target layout.fields)
      (b.target layout.fields) ps := by
    rintro ps ⟨-, -, -, hnone⟩
    cases hnone
  obtain rfl : e₁ = e₂ := (hboth e₁ e₂ he₁ he₂).2.1 hthere
  exact ⟨hne, hab, hba, hget, e₁, he₁, he₂⟩

end Action

end DeviceSnapshot
