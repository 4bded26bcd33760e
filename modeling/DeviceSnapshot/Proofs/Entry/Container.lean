import DeviceSnapshot.Entry.Action
import DeviceSnapshot.Proofs.Keyed
import DeviceSnapshot.Proofs.Result

/-!
# Entries as containers

Whether an entry is a pairs container is read off its content, and every read and every write reads
it off anew. Arguments about a sequence of writes want that decided once. A `Container` is an entry
with the decision made; reading and writing fields of it obey the laws of a finite map, with one
failure on top: a pairs container is read up to the field, and a malformed pair on the way ends the
reading.

## Actions keep the container

A write could turn one container into the other: an empty object that gets a member `Object` with an
array for its value reads as a pairs container afterwards. Actions never do that. In a tagged layout
an action writes a bare array only in place of a bare array, and an object whose only member is
`Object` with a bare array was a pairs container all along (`Layout.Reads.applyTo`). So the actions
of a rule may be followed on the container (`applyAll_eq`).
-/

namespace DeviceSnapshot

/-! ## Wrapped values -/

namespace Json

theorem tagged?_eq_some_iff {tag : String} {v w : Json} :
    v.tagged? tag = some w ↔ v = .wrap tag w := by
  constructor
  · intro h
    unfold tagged? at h
    split at h
    · split at h
      · next hname => rw [← hname, Option.some.inj h, wrap]
      · cases h
    · cases h
  · rintro rfl
    exact if_pos rfl

theorem eq_of_list?_eq_some {v : Json} {items : List Json} (h : v.list? = some items) :
    v = .arr items ∨ v = .wrap "Array" (.arr items) := by
  have harr : ∀ {w : Json}, w.arr? = some items → w = .arr items := by
    intro w hw
    cases w with
    | arr items' => rw [Option.some.inj hw]
    | _ => cases hw
  rw [list?, Option.or_eq_some_iff] at h
  rcases h with h | ⟨-, h⟩
  · exact .inl (harr h)
  · obtain ⟨w, hw, hitems⟩ := Option.bind_eq_some_iff.mp h
    rw [tagged?_eq_some_iff.mp hw, harr hitems]
    exact .inr rfl

end Json

/-! ## Pairs -/

namespace Pairs

variable {name name' : String} {v w : Json} {i : Nat} {ps qs : List Json}

theorem pair?_eq_some_iff {p : Json} : p.pair? = some (name, v) ↔ p = .arr [.str name, v] := by
  constructor
  · intro h
    unfold Json.pair? at h
    split at h
    · obtain ⟨rfl, rfl⟩ := Prod.mk.inj (Option.some.inj h)
      rfl
    · cases h
  · rintro rfl
    rfl

@[simp] theorem pair?_arr (name : String) (v : Json) :
    (Json.arr [.str name, v]).pair? = some (name, v) := rfl

theorem pair?_cases (p : Json) : p.pair? = none ∨ ∃ n u, p = .arr [.str n, u] := by
  cases h : p.pair? with
  | none => exact .inl rfl
  | some nu => exact .inr ⟨nu.1, nu.2, pair?_eq_some_iff.mp h⟩

theorem get?_malformed {p : Json} (h : p.pair? = none) :
    get? name i (p :: ps) = .error (.malformedPair i) := by
  rw [get?, h]

theorem upsert_malformed {p : Json} (h : p.pair? = none) :
    upsert name v i (p :: ps) = .error (.malformedPair i) := by
  rw [upsert, h]

theorem get?_pair (n : String) (u : Json) :
    get? name i (.arr [.str n, u] :: ps)
      = if n = name then .ok (some u) else get? name (i + 1) ps := by
  rw [get?, pair?_arr]

theorem upsert_pair (n : String) (u : Json) :
    upsert name v i (.arr [.str n, u] :: ps)
      = if n = name then .ok (.arr [.str name, v] :: ps)
        else (upsert name v (i + 1) ps).map (.arr [.str n, u] :: ·) := by
  rw [upsert, pair?_arr]

/-- **How a write succeeds.** It appends a pair to none, replaces the first pair, or passes a pair
with another name. -/
theorem of_upsert_cons_eq_ok {p : Json} (h : upsert name v i (p :: ps) = .ok qs) :
    (∃ u, p = .arr [.str name, u] ∧ qs = .arr [.str name, v] :: ps) ∨
      ∃ n u rs, n ≠ name ∧ p = .arr [.str n, u] ∧ upsert name v (i + 1) ps = .ok rs ∧
        qs = p :: rs := by
  rcases pair?_cases p with hp | ⟨n, u, rfl⟩
  · rw [upsert_malformed hp] at h
    cases h
  · rw [upsert_pair] at h
    by_cases hn : n = name
    · subst hn
      rw [if_pos rfl] at h
      exact .inl ⟨u, rfl, (Except.ok.inj h).symm⟩
    · rw [if_neg hn] at h
      obtain ⟨rs, hrs, hqs⟩ := map_eq_ok_iff.mp h
      exact .inr ⟨n, u, rs, hn, rfl, hrs, hqs.symm⟩

theorem of_get?_cons_eq_ok {p : Json} {x : Option Json} (h : get? name i (p :: ps) = .ok x) :
    (∃ u, p = .arr [.str name, u] ∧ x = some u) ∨
      ∃ n u, n ≠ name ∧ p = .arr [.str n, u] ∧ get? name (i + 1) ps = .ok x := by
  rcases pair?_cases p with hp | ⟨n, u, rfl⟩
  · rw [get?_malformed hp] at h
    cases h
  · rw [get?_pair] at h
    by_cases hn : n = name
    · subst hn
      rw [if_pos rfl] at h
      exact .inl ⟨u, rfl, (Except.ok.inj h).symm⟩
    · rw [if_neg hn] at h
      exact .inr ⟨n, u, hn, rfl, h⟩

theorem upsert_of_get?_error {fault : ShapeFault} (h : get? name i ps = .error fault) (v : Json) :
    upsert name v i ps = .error fault := by
  induction ps generalizing i with
  | nil => cases h
  | cons p ps ih =>
    rcases pair?_cases p with hp | ⟨n, u, rfl⟩
    · rw [get?_malformed hp] at h
      rw [upsert_malformed hp, Except.error.inj h]
    · rw [get?_pair] at h
      by_cases hn : n = name
      · rw [if_pos hn] at h
        cases h
      · rw [if_neg hn] at h
        rw [upsert_pair, if_neg hn, ih h]
        rfl

theorem upsert_of_get?_ok {x : Option Json} (h : get? name i ps = .ok x) (v : Json) :
    ∃ qs, upsert name v i ps = .ok qs := by
  induction ps generalizing i with
  | nil => exact ⟨_, rfl⟩
  | cons p ps ih =>
    rcases of_get?_cons_eq_ok h with ⟨u, rfl, -⟩ | ⟨n, u, hn, rfl, hrest⟩
    · exact ⟨_, by rw [upsert_pair, if_pos rfl]⟩
    · obtain ⟨qs, hqs⟩ := ih hrest
      refine ⟨.arr [.str n, u] :: qs, ?_⟩
      rw [upsert_pair, if_neg hn, hqs]
      rfl

theorem get?_upsert_self (h : upsert name v i ps = .ok qs) : get? name i qs = .ok (some v) := by
  induction ps generalizing i qs with
  | nil => rw [← Except.ok.inj h, get?_pair, if_pos rfl]
  | cons p ps ih =>
    rcases of_upsert_cons_eq_ok h with ⟨u, -, rfl⟩ | ⟨n, u, rs, hn, rfl, hrs, rfl⟩
    · rw [get?_pair, if_pos rfl]
    · rw [get?_pair, if_neg hn, ih hrs]

theorem get?_upsert_of_ne (h : upsert name v i ps = .ok qs) (hne : name' ≠ name) :
    get? name' i qs = get? name' i ps := by
  induction ps generalizing i qs with
  | nil =>
    rw [← Except.ok.inj h, get?_pair, if_neg hne.symm]
    rfl
  | cons p ps ih =>
    rcases of_upsert_cons_eq_ok h with ⟨u, rfl, rfl⟩ | ⟨n, u, rs, -, rfl, hrs, rfl⟩
    · rw [get?_pair, get?_pair, if_neg hne.symm, if_neg hne.symm]
    · rw [get?_pair, get?_pair, ih hrs]

theorem upsert_upsert_self (h : upsert name v i ps = .ok qs) (w : Json) :
    upsert name w i qs = upsert name w i ps := by
  induction ps generalizing i qs with
  | nil =>
    rw [← Except.ok.inj h, upsert_pair, if_pos rfl]
    rfl
  | cons p ps ih =>
    rcases of_upsert_cons_eq_ok h with ⟨u, rfl, rfl⟩ | ⟨n, u, rs, hn, rfl, hrs, rfl⟩
    · rw [upsert_pair, upsert_pair, if_pos rfl, if_pos rfl]
    · rw [upsert_pair, upsert_pair, if_neg hn, if_neg hn, ih hrs]

theorem mem_of_get?_some (h : get? name i ps = .ok (some v)) : .arr [.str name, v] ∈ ps := by
  induction ps generalizing i with
  | nil => cases h
  | cons p ps ih =>
    rcases of_get?_cons_eq_ok h with ⟨u, rfl, heq⟩ | ⟨n, u, -, rfl, hrest⟩
    · rw [Option.some.inj heq]
      exact List.mem_cons_self
    · exact List.mem_cons_of_mem _ (ih hrest)

theorem mem_of_mem_upsert (h : upsert name v i ps = .ok qs) {q : Json} (hq : q ∈ qs) :
    q = .arr [.str name, v] ∨ q ∈ ps := by
  induction ps generalizing i qs with
  | nil =>
    rw [← Except.ok.inj h] at hq
    exact .inl (List.mem_singleton.mp hq)
  | cons p ps ih =>
    rcases of_upsert_cons_eq_ok h with ⟨u, -, rfl⟩ | ⟨n, u, rs, -, -, hrs, rfl⟩
    · exact (List.mem_cons.mp hq).imp_right (List.mem_cons_of_mem _)
    · rcases List.mem_cons.mp hq with rfl | hq
      · exact .inr List.mem_cons_self
      · exact (ih hrs hq).imp_right (List.mem_cons_of_mem _)

theorem upsert_of_get?_some (h : get? name i ps = .ok (some v)) : upsert name v i ps = .ok ps := by
  induction ps generalizing i with
  | nil => cases h
  | cons p ps ih =>
    rcases of_get?_cons_eq_ok h with ⟨u, rfl, heq⟩ | ⟨n, u, hn, rfl, hrest⟩
    · rw [upsert_pair, if_pos rfl, Option.some.inj heq]
    · rw [upsert_pair, if_neg hn, ih hrest]
      rfl

end Pairs

/-! ## Containers -/

/-- An entry as a layout reads it. -/
inductive Container where
  /-- The pairs of a pairs container. -/
  | pairs (ps : List Json)
  /-- The members of any other object. -/
  | members (ms : Keyed Json)

namespace Container

/-- The entry. -/
def toJson : Container → Json
  | .pairs ps => .wrap "Object" (.arr ps)
  | .members ms => .obj ms

def get? (field : String) : Container → Except ShapeFault (Option Json)
  | .pairs ps => Pairs.get? field 0 ps
  | .members ms => .ok (Keyed.get? ms field)

def upsert (field : String) (v : Json) : Container → Except ShapeFault Container
  | .pairs ps => (Pairs.upsert field v 0 ps).map .pairs
  | .members ms => .ok (.members (Keyed.insert ms field v))

def Ordered : Container → Prop
  | .pairs _ => True
  | .members ms => Keyed.Ordered ms

variable {c c' : Container} {field field' : String} {v : Json}

theorem upsert_pairs_eq_ok {ps : List Json} (h : upsert field v (.pairs ps) = .ok c') :
    ∃ qs, Pairs.upsert field v 0 ps = .ok qs ∧ c' = .pairs qs := by
  obtain ⟨qs, hqs, hc'⟩ := map_eq_ok_iff.mp h
  exact ⟨qs, hqs, hc'.symm⟩

theorem upsert_of_get?_error {fault : ShapeFault} (h : c.get? field = .error fault) (v : Json) :
    c.upsert field v = .error fault := by
  cases c with
  | pairs ps =>
    rw [upsert, Pairs.upsert_of_get?_error h]
    rfl
  | members ms => cases h

theorem upsert_of_get?_ok {x : Option Json} (h : c.get? field = .ok x) (v : Json) :
    ∃ c', c.upsert field v = .ok c' := by
  cases c with
  | pairs ps =>
    obtain ⟨qs, hqs⟩ := Pairs.upsert_of_get?_ok h v
    exact ⟨.pairs qs, by rw [upsert, hqs]; rfl⟩
  | members ms => exact ⟨_, rfl⟩

theorem get?_upsert_self (h : c.upsert field v = .ok c') : c'.get? field = .ok (some v) := by
  cases c with
  | pairs ps =>
    obtain ⟨qs, hqs, rfl⟩ := upsert_pairs_eq_ok h
    exact Pairs.get?_upsert_self hqs
  | members ms =>
    rw [← Except.ok.inj h, get?, Keyed.get?_insert_self]

theorem get?_upsert_of_ne (h : c.upsert field v = .ok c') (hne : field' ≠ field) :
    c'.get? field' = c.get? field' := by
  cases c with
  | pairs ps =>
    obtain ⟨qs, hqs, rfl⟩ := upsert_pairs_eq_ok h
    exact Pairs.get?_upsert_of_ne hqs hne
  | members ms =>
    rw [← Except.ok.inj h, get?, get?, Keyed.get?_insert_of_ne v hne]

theorem upsert_upsert_self (h : c.upsert field v = .ok c') (w : Json) :
    c'.upsert field w = c.upsert field w := by
  cases c with
  | pairs ps =>
    obtain ⟨qs, hqs, rfl⟩ := upsert_pairs_eq_ok h
    rw [upsert, upsert, Pairs.upsert_upsert_self hqs]
  | members ms =>
    rw [← Except.ok.inj h, upsert, upsert, Keyed.insert_insert_self]

theorem upsert_of_get?_some (hc : c.Ordered) (h : c.get? field = .ok (some v)) :
    c.upsert field v = .ok c := by
  cases c with
  | pairs ps =>
    rw [upsert, Pairs.upsert_of_get?_some h]
    rfl
  | members ms =>
    rw [upsert, Keyed.Ordered.insert_of_get? hc (Except.ok.inj h)]

theorem Ordered.upsert (hc : c.Ordered) (h : c.upsert field v = .ok c') : c'.Ordered := by
  cases c with
  | pairs ps =>
    obtain ⟨qs, -, rfl⟩ := upsert_pairs_eq_ok h
    trivial
  | members ms =>
    rw [← Except.ok.inj h]
    exact Keyed.Ordered.insert hc field v

end Container

/-! ## What a layout reads -/

namespace Layout

variable {layout : Layout}

/-- The container of an entry. -/
def container (layout : Layout) (entry : Json) : Except ShapeFault Container :=
  match layout.pairs? entry with
  | some ps => .ok (.pairs ps)
  | none =>
    match entry with
    | .obj ms => .ok (.members ms)
    | _ => .error (.notAContainer layout.encoding)

theorem container_of_pairs? {entry : Json} {ps : List Json} (h : layout.pairs? entry = some ps) :
    layout.container entry = .ok (.pairs ps) := by
  unfold container
  rw [h]

theorem container_obj {ms : Keyed Json} (h : layout.pairs? (.obj ms) = none) :
    layout.container (.obj ms) = .ok (.members ms) := by
  unfold container
  rw [h]

theorem get?_eq (layout : Layout) (entry : Json) (field : String) :
    layout.get? entry field = layout.container entry >>= Container.get? field := by
  unfold get? container
  cases layout.pairs? entry with
  | some ps => rfl
  | none => cases entry <;> rfl

theorem upsert_eq (layout : Layout) (entry : Json) (field : String) (v : Json) :
    layout.upsert entry field v
      = layout.container entry >>= fun c ↦ (c.upsert field v).map Container.toJson := by
  unfold upsert container
  cases layout.pairs? entry with
  | some ps =>
    change (Pairs.upsert field v 0 ps).map _
      = ((Pairs.upsert field v 0 ps).map Container.pairs).map Container.toJson
    cases Pairs.upsert field v 0 ps <;> rfl
  | none => cases entry <;> rfl

theorem pairs?_eq_some_iff {entry : Json} {ps : List Json} :
    layout.pairs? entry = some ps ↔
      layout.encoding = .tagged ∧ entry = .wrap "Object" (.arr ps) := by
  rw [pairs?]
  cases layout.encoding with
  | plain => simp
  | tagged =>
    constructor
    · intro h
      dsimp only at h
      obtain ⟨v, hv, hps⟩ := Option.bind_eq_some_iff.mp h
      refine ⟨rfl, ?_⟩
      rw [Json.tagged?_eq_some_iff.mp hv]
      cases v with
      | arr items => rw [Option.some.inj hps]
      | _ => cases hps
    · rintro ⟨-, rfl⟩
      rfl

theorem toJson_of_container {entry : Json} {c : Container} (h : layout.container entry = .ok c) :
    c.toJson = entry := by
  cases hps : layout.pairs? entry with
  | some ps =>
    rw [container_of_pairs? hps] at h
    rw [← Except.ok.inj h, (pairs?_eq_some_iff.mp hps).2]
    rfl
  | none =>
    cases entry with
    | obj ms =>
      rw [container_obj hps] at h
      rw [← Except.ok.inj h]
      rfl
    | _ =>
      unfold container at h
      rw [hps] at h
      cases h

theorem container_eq_pairs_iff {e : Json} {ps : List Json} :
    layout.container e = .ok (.pairs ps) ↔ layout.pairs? e = some ps := by
  constructor
  · intro h
    unfold container at h
    rcases hps : layout.pairs? e with _ | qs
    · rw [hps] at h
      cases e <;> cases h
    · rw [hps] at h
      cases h
      rfl
  · exact container_of_pairs?

theorem container_eq_members_iff {e : Json} {ms : Keyed Json} :
    layout.container e = .ok (.members ms) ↔ layout.pairs? e = none ∧ e = .obj ms := by
  constructor
  · intro h
    obtain rfl : .obj ms = e := toJson_of_container h
    rcases hps : layout.pairs? (.obj ms) with _ | qs
    · exact ⟨rfl, rfl⟩
    · rw [container_of_pairs? hps] at h
      cases h
  · rintro ⟨hps, rfl⟩
    exact container_obj hps

theorem get?_of_container {e : Json} {c : Container} (h : layout.container e = .ok c)
    (field : String) : layout.get? e field = c.get? field := by
  rw [get?_eq, h]
  rfl

theorem upsert_of_container {e : Json} {c : Container} (h : layout.container e = .ok c)
    (field : String) (v : Json) :
    layout.upsert e field v = (c.upsert field v).map Container.toJson := by
  rw [upsert_eq, h]
  rfl

theorem ordered_of_container {entry : Json} {c : Container} (hentry : entry.Ordered)
    (h : layout.container entry = .ok c) : c.Ordered := by
  rw [← toJson_of_container h] at hentry
  cases c with
  | pairs ps => trivial
  | members ms =>
    rw [Container.toJson, Json.Ordered] at hentry
    exact hentry.1

/-- The layout reads a container as what it is. -/
def Reads (layout : Layout) (c : Container) : Prop := layout.container c.toJson = .ok c

theorem reads_of_container {entry : Json} {c : Container} (h : layout.container entry = .ok c) :
    layout.Reads c := by
  rw [Reads, toJson_of_container h, h]

theorem reads_pairs_iff {ps : List Json} :
    layout.Reads (.pairs ps) ↔ layout.encoding = .tagged := by
  rw [Reads, Container.toJson]
  constructor
  · intro h
    cases hps : layout.pairs? (.wrap "Object" (.arr ps)) with
    | some qs => exact (pairs?_eq_some_iff.mp hps).1
    | none => simp [Json.wrap, container_obj hps] at h
  · exact fun h ↦ container_of_pairs? (pairs?_eq_some_iff.mpr ⟨h, rfl⟩)

theorem reads_members_iff {ms : Keyed Json} : layout.Reads (.members ms) ↔
    (layout.encoding = .tagged → ∀ ps, ms ≠ [("Object", .arr ps)]) := by
  rw [Reads, Container.toJson]
  cases hps : layout.pairs? (.obj ms) with
  | some ps =>
    obtain ⟨htagged, hms⟩ := pairs?_eq_some_iff.mp hps
    rw [container_of_pairs? hps]
    exact iff_of_false (by simp) fun h ↦ h htagged ps (Json.obj.inj hms)
  | none =>
    refine iff_of_true (container_obj hps) ?_
    rintro htagged ps rfl
    have hsome := pairs?_eq_some_iff.mpr ⟨htagged, (rfl : _ = Json.wrap "Object" (.arr ps))⟩
    rw [Json.wrap, hps] at hsome
    cases hsome

end Layout

/-! ## Actions -/

namespace Action

variable {layout : Layout} {c c' : Container}

def applyTo (layout : Layout) (a : Action) (c : Container) : Except ShapeFault Container := do
  let existing ← c.get? (a.target layout.fields)
  let v ← a.newValue layout existing
  c.upsert (a.target layout.fields) v

/-- The container after all actions, one after the other. -/
def applyAllTo (layout : Layout) (as : List Action) (c : Container) :
    Except ShapeFault Container :=
  as.foldlM (fun c a ↦ a.applyTo layout c) c

/-- **What an action does when it succeeds.** -/
theorem applyTo_eq_ok_iff {a : Action} : a.applyTo layout c = .ok c' ↔
    ∃ x v, c.get? (a.target layout.fields) = .ok x ∧ a.newValue layout x = .ok v ∧
      c.upsert (a.target layout.fields) v = .ok c' := by
  simp only [applyTo, bind_eq_ok_iff]
  constructor
  · rintro ⟨x, hx, v, hv, hup⟩
    exact ⟨x, v, hx, hv, hup⟩
  · rintro ⟨x, v, hx, hv, hup⟩
    exact ⟨x, hx, v, hv, hup⟩

@[simp] theorem applyAllTo_nil (layout : Layout) (c : Container) :
    applyAllTo layout [] c = .ok c := rfl

theorem applyAllTo_cons (layout : Layout) (a : Action) (as : List Action) (c : Container) :
    applyAllTo layout (a :: as) c = a.applyTo layout c >>= applyAllTo layout as := rfl

theorem applyAllTo_cons_eq_ok_iff {a : Action} {as : List Action} :
    applyAllTo layout (a :: as) c = .ok c' ↔
      ∃ c₁, a.applyTo layout c = .ok c₁ ∧ applyAllTo layout as c₁ = .ok c' := by
  rw [applyAllTo_cons, bind_eq_ok_iff]

theorem newValue_paths_some_eq_ok {subs : List Substitution} {v w : Json}
    (h : newValue layout (some v) (.paths subs) = .ok w) :
    ∃ items items', v.list? = some items ∧ substituteItems layout subs 0 items = .ok items' ∧
      w = layout.listLike (some v) items' := by
  rw [newValue] at h
  cases hlist : v.list? with
  | none => simp [hlist] at h
  | some items =>
    rw [hlist] at h
    obtain ⟨items', hitems, hw⟩ := map_eq_ok_iff.mp h
    exact ⟨items, items', rfl, hitems, hw.symm⟩

/-- In a tagged layout a bare list is written only in place of a bare list. -/
theorem exists_arr_of_newValue_eq_arr {a : Action} {x : Option Json} {items : List Json}
    (htagged : layout.encoding = .tagged) (h : a.newValue layout x = .ok (.arr items)) :
    ∃ old, x = some (.arr old) := by
  have hstring : ∀ s, layout.stringLike x s ≠ .arr items := by
    intro s
    rw [Layout.stringLike]
    split <;> simp [Json.wrap]
  cases a with
  | devpath s => exact absurd (Except.ok.inj h) (hstring s)
  | dmUuid s => exact absurd (Except.ok.inj h) (hstring s)
  | paths subs =>
    cases x with
    | none => simp [newValue, Layout.listLike, Layout.wraps, htagged, Json.wrap] at h
    | some v =>
      obtain ⟨old, new, hlist, -, heq⟩ := newValue_paths_some_eq_ok h
      rcases Json.eq_of_list?_eq_some hlist with rfl | rfl
      · exact ⟨old, rfl⟩
      · -- A wrapped list would be replaced by a wrapped one.
        have hwraps : layout.wraps "Array" (some (.wrap "Array" (.arr old))) = true := rfl
        rw [Layout.listLike, if_pos hwraps] at heq
        cases heq

end Action

/-- **Actions keep the container.** -/
theorem Layout.Reads.applyTo {layout : Layout} {c c' : Container} {a : Action}
    (hc : layout.Reads c) (h : a.applyTo layout c = .ok c') : layout.Reads c' := by
  obtain ⟨x, v, hx, hv, hup⟩ := Action.applyTo_eq_ok_iff.mp h
  cases c with
  | pairs ps =>
    obtain ⟨qs, -, rfl⟩ := Container.upsert_pairs_eq_ok hup
    exact reads_pairs_iff.mpr (reads_pairs_iff.mp hc)
  | members ms =>
    rw [← Except.ok.inj hup, reads_members_iff]
    intro htagged ps hms
    obtain ⟨hfield, rfl, hsingle⟩ := Keyed.of_insert_eq_singleton hms
    obtain ⟨old, rfl⟩ := Action.exists_arr_of_newValue_eq_arr htagged hv
    rw [hfield] at hx hsingle
    rcases hsingle with rfl | ⟨u, rfl⟩
    · simp [Container.get?] at hx
    · rw [Container.get?, Keyed.get?, if_pos rfl] at hx
      rw [Option.some.inj (Except.ok.inj hx)] at hc
      exact reads_members_iff.mp hc htagged old rfl

theorem Layout.Reads.applyAllTo {layout : Layout} {c c' : Container} {as : List Action}
    (hc : layout.Reads c) (h : Action.applyAllTo layout as c = .ok c') : layout.Reads c' := by
  induction as generalizing c with
  | nil => exact Except.ok.inj h ▸ hc
  | cons a as ih =>
    obtain ⟨d, hd, h⟩ := Action.applyAllTo_cons_eq_ok_iff.mp h
    exact ih (hc.applyTo hd) h

theorem Action.apply_eq {layout : Layout} {entry : Json} {c : Container}
    (h : layout.container entry = .ok c) (a : Action) :
    a.apply layout entry = (a.applyTo layout c).map Container.toJson := by
  rw [Action.apply, Action.applyTo, Layout.get?_eq, h]
  change (c.get? _ >>= _) = Except.map _ (c.get? _ >>= _)
  cases c.get? (a.target layout.fields) with
  | error fault => rfl
  | ok x =>
    change (a.newValue layout x >>= _) = Except.map _ (a.newValue layout x >>= _)
    cases a.newValue layout x with
    | error fault => rfl
    | ok v =>
      change layout.upsert entry _ v = Except.map _ (c.upsert _ v)
      rw [Layout.upsert_eq, h]
      rfl

/-- **The actions of a rule on an entry are those on its container.** -/
theorem Action.applyAll_eq {layout : Layout} {entry : Json} {c : Container}
    (h : layout.container entry = .ok c) (as : List Action) :
    Action.applyAll layout as entry = (Action.applyAllTo layout as c).map Container.toJson := by
  induction as generalizing entry c with
  | nil =>
    rw [applyAllTo_nil, Except.map, Layout.toJson_of_container h]
    rfl
  | cons a as ih =>
    rw [applyAllTo_cons, Action.applyAll, List.foldlM_cons, apply_eq h]
    cases hc : a.applyTo layout c with
    | error fault => rfl
    | ok c₁ => exact ih ((Layout.reads_of_container h).applyTo hc)

theorem Action.applyAll_of_container_error {layout : Layout} {entry : Json} {fault : ShapeFault}
    (h : layout.container entry = .error fault) {as : List Action} (has : as ≠ []) :
    Action.applyAll layout as entry = .error fault := by
  cases as with
  | nil => exact absurd rfl has
  | cons a as =>
    rw [Action.applyAll, List.foldlM_cons, Action.apply, Layout.get?_eq, h]
    rfl

theorem Action.of_applyAll_eq_ok {layout : Layout} {as : List Action} {entry entry' : Json}
    (h : Action.applyAll layout as entry = .ok entry') :
    as = [] ∧ entry' = entry ∨ ∃ c c', layout.container entry = .ok c ∧
      Action.applyAllTo layout as c = .ok c' ∧ entry' = c'.toJson := by
  cases hcon : layout.container entry with
  | error fault =>
    by_cases has : as = []
    · subst has
      exact .inl ⟨rfl, (Except.ok.inj h).symm⟩
    · rw [applyAll_of_container_error hcon has] at h
      cases h
  | ok c =>
    rw [applyAll_eq hcon] at h
    obtain ⟨c', hc, hentry'⟩ := map_eq_ok_iff.mp h
    exact .inr ⟨c, c', rfl, hc, hentry'.symm⟩

end DeviceSnapshot
