import DeviceSnapshot.Proofs.Entry.Field
import DeviceSnapshot.Record

/-!
# When reading, writing and amending fail

Reading a field fails for two reasons only: the entry is no object, or a pairs container holds a
malformed pair before the first pair with the name of the field. Everything else is reduced to this.
A write reads the same pairs and stops at the same place (`upsert_eq_error_iff`), so an action that
has read its field can write it (`Action.exists_upsert`), and what else can go wrong in an action is
the old value: a list of paths has to be a list of texts. A rule fails with its first action that
does.

In each case the position of a fault is the least one: pairs and elements before it are in order.
-/

namespace DeviceSnapshot

/-! ## The first element of its kind -/

section FirstAt

variable {α : Type} {p q : α → Prop} {x : α} {l : List α} {i : Nat}

/-- At a position stands an element of one kind, and before it stand only elements of another. -/
def FirstAt (p q : α → Prop) (l : List α) (i : Nat) : Prop :=
  (∃ x, l[i]? = some x ∧ p x) ∧ ∀ j < i, ∃ x, l[j]? = some x ∧ q x

theorem not_firstAt_nil : ¬FirstAt p q [] i := by
  rintro ⟨⟨x, hx, -⟩, -⟩
  cases hx

theorem firstAt_cons_zero_iff : FirstAt p q (x :: l) 0 ↔ p x := by
  simp [FirstAt]

theorem firstAt_cons_succ_iff : FirstAt p q (x :: l) (i + 1) ↔ q x ∧ FirstAt p q l i := by
  simp only [FirstAt, Nat.forall_lt_succ_left, List.getElem?_cons_zero, List.getElem?_cons_succ,
    Option.some.injEq, exists_eq_left']
  exact and_left_comm

theorem exists_firstAt_cons_iff (hx : ¬p x) {k : Nat} {r : Nat → Prop} :
    (∃ i, FirstAt p q (x :: l) i ∧ r (k + i)) ↔ q x ∧ ∃ i, FirstAt p q l i ∧ r (k + 1 + i) := by
  constructor
  · rintro ⟨i, hi, hr⟩
    rcases i with _ | i
    · exact absurd (firstAt_cons_zero_iff.mp hi) hx
    · obtain ⟨hq, hi⟩ := firstAt_cons_succ_iff.mp hi
      exact ⟨hq, i, hi, by rwa [Nat.add_right_comm, Nat.add_assoc]⟩
  · rintro ⟨hq, i, hi, hr⟩
    exact ⟨i + 1, firstAt_cons_succ_iff.mpr ⟨hq, hi⟩,
      by rwa [← Nat.add_assoc, Nat.add_right_comm]⟩

end FirstAt

/-! ## Values that are no texts and no lists -/

namespace Json

variable {v : Json} {s : String} {items : List Json}

theorem text?_eq_some_iff : v.text? = some s ↔ v = .str s ∨ v = .obj [("String", .str s)] := by
  refine ⟨eq_of_text?_eq_some, ?_⟩
  rintro (rfl | rfl) <;> rfl

theorem text?_eq_none_iff :
    v.text? = none ↔ ∀ s, v ≠ .str s ∧ v ≠ .obj [("String", .str s)] := by
  rw [Option.eq_none_iff_forall_ne_some]
  exact forall_congr' fun s ↦ (not_congr text?_eq_some_iff).trans not_or

theorem list?_eq_some_iff :
    v.list? = some items ↔ v = .arr items ∨ v = .obj [("Array", .arr items)] := by
  refine ⟨eq_of_list?_eq_some, ?_⟩
  rintro (rfl | rfl) <;> rfl

theorem list?_eq_none_iff :
    v.list? = none ↔ ∀ items, v ≠ .arr items ∧ v ≠ .obj [("Array", .arr items)] := by
  rw [Option.eq_none_iff_forall_ne_some]
  exact forall_congr' fun items ↦ (not_congr list?_eq_some_iff).trans not_or

end Json

/-! ## Reading pairs -/

namespace Pairs

variable {name : String} {v : Json} {i k : Nat} {p : Json} {ps qs : List Json} {fault : ShapeFault}

/-- The element is no pair of a name and a value. -/
def IsMalformed (p : Json) : Prop := ∀ n u, p ≠ .arr [.str n, u]

/-- The element is a pair with another name. -/
def IsOther (name : String) (p : Json) : Prop := ∃ n u, p = .arr [.str n, u] ∧ n ≠ name

theorem pair?_eq_none_iff : p.pair? = none ↔ IsMalformed p := by
  rw [Option.eq_none_iff_forall_ne_some, Prod.forall]
  exact forall_congr' fun n ↦ forall_congr' fun u ↦ not_congr pair?_eq_some_iff

/-- **How reading fails.** -/
theorem get?_eq_error_iff : get? name k ps = .error fault ↔
    ∃ i, FirstAt IsMalformed (IsOther name) ps i ∧ fault = .malformedPair (k + i) := by
  induction ps generalizing k with
  | nil => exact iff_of_false (by simp [get?]) fun ⟨i, hi, _⟩ ↦ not_firstAt_nil hi
  | cons p ps ih =>
    rcases pair?_cases p with hp | ⟨n, u, rfl⟩
    · -- Reading stops here, and no later position has only pairs before it.
      have hmal : IsMalformed p := pair?_eq_none_iff.mp hp
      rw [get?_malformed hp]
      constructor
      · intro h
        exact ⟨0, firstAt_cons_zero_iff.mpr hmal, (Except.error.inj h).symm⟩
      · rintro ⟨i, hi, rfl⟩
        rcases i with _ | i
        · rfl
        · obtain ⟨⟨n, u, hpair, -⟩, -⟩ := firstAt_cons_succ_iff.mp hi
          exact absurd hpair (hmal n u)
    · have hpair : ¬IsMalformed (.arr [.str n, u]) := fun hmal ↦ hmal n u rfl
      have hother : IsOther name (.arr [.str n, u]) ↔ n ≠ name := by simp [IsOther]
      rw [get?_pair, exists_firstAt_cons_iff hpair (r := fun i ↦ fault = .malformedPair i), hother]
      by_cases hn : n = name
      · rw [if_pos hn]
        exact iff_of_false (by simp) fun h ↦ h.1 hn
      · rw [if_neg hn, ih, and_iff_right hn]

/-- **A write in place gives what a write gives, and a failed one leaves all pairs as they are.** -/
theorem store_eq : store name v i ps =
    match upsert name v i ps with
    | .ok qs => (.ok (), qs)
    | .error fault => (.error fault, ps) := by
  induction ps generalizing i with
  | nil => rfl
  | cons p ps ih =>
    rcases pair?_cases p with hp | ⟨n, u, rfl⟩
    · rw [store, upsert_malformed hp, hp]
    · rw [store, upsert_pair, pair?_arr]
      by_cases hn : n = name
      · rw [if_pos hn]
        exact if_pos hn
      · rw [if_neg hn]
        refine (if_neg hn).trans ?_
        rw [ih]
        cases upsert name v (i + 1) ps <;> rfl

end Pairs

/-! ## Reading and writing fields of an entry -/

namespace Layout

variable {layout : Layout} {e : Json} {field : String} {fault : ShapeFault}

/-- Why a field of an entry cannot be read. -/
inductive Unreadable (layout : Layout) (e : Json) (field : String) : ShapeFault → Prop
  | notAContainer : (∀ ms, e ≠ .obj ms) →
      Unreadable layout e field (.notAContainer layout.encoding)
  | malformedPair {ps : List Json} {i : Nat} : layout.encoding = .tagged →
      e = .obj [("Object", .arr ps)] → FirstAt Pairs.IsMalformed (Pairs.IsOther field) ps i →
      Unreadable layout e field (.malformedPair i)

theorem exists_container (layout : Layout) (ms : Keyed Json) :
    ∃ c, layout.container (.obj ms) = .ok c := by
  rcases hps : layout.pairs? (.obj ms) with _ | ps
  · exact ⟨.members ms, container_obj hps⟩
  · exact ⟨.pairs ps, container_of_pairs? hps⟩

theorem container_of_not_obj (h : ∀ ms, e ≠ .obj ms) :
    layout.container e = .error (.notAContainer layout.encoding) := by
  rcases hc : layout.container e with fault | c
  · unfold container at hc
    rcases hps : layout.pairs? e with _ | ps
    · rw [hps] at hc
      cases e with
      | obj ms => exact absurd rfl (h ms)
      | _ => exact hc.symm
    · exact absurd (pairs?_eq_some_iff.mp hps).2 (h _)
  · rw [← toJson_of_container hc] at h
    rcases c with ps | ms
    · exact absurd rfl (h _)
    · exact absurd rfl (h ms)

/-- **How reading a field fails.** -/
theorem get?_eq_error_iff :
    layout.get? e field = .error fault ↔ layout.Unreadable e field fault := by
  by_cases hobj : ∃ ms, e = .obj ms
  · obtain ⟨ms, rfl⟩ := hobj
    obtain ⟨c, hc⟩ := exists_container layout ms
    rw [get?_of_container hc]
    constructor
    · intro h
      rcases c with ps | ms'
      · obtain ⟨htagged, he⟩ := pairs?_eq_some_iff.mp (container_eq_pairs_iff.mp hc)
        obtain ⟨i, hi, rfl⟩ := Pairs.get?_eq_error_iff.mp h
        rw [Nat.zero_add]
        exact .malformedPair htagged he hi
      · cases h
    · rintro (hnot | @⟨ps, i, htagged, he, hi⟩)
      · exact absurd rfl (hnot ms)
      · have hpairs := container_of_pairs? (pairs?_eq_some_iff.mpr ⟨htagged, he⟩)
        obtain rfl : .pairs ps = c := Except.ok.inj (hpairs.symm.trans hc)
        exact Pairs.get?_eq_error_iff.mpr ⟨i, hi, by rw [Nat.zero_add]⟩
  · have hnot : ∀ ms, e ≠ .obj ms := fun ms he ↦ hobj ⟨ms, he⟩
    rw [get?_eq, container_of_not_obj hnot]
    constructor
    · intro h
      rw [← Except.error.inj h]
      exact .notAContainer hnot
    · rintro (- | ⟨-, rfl, -⟩)
      · rfl
      · exact absurd rfl (hnot _)

theorem exists_upsert_of_get?_eq_ok {x : Option Json} (h : layout.get? e field = .ok x)
    (v : Json) : ∃ e', layout.upsert e field v = .ok e' := by
  rcases hc : layout.container e with fault | c
  · rw [get?_eq, hc] at h
    cases h
  · rw [get?_of_container hc] at h
    obtain ⟨c', hc'⟩ := Container.upsert_of_get?_ok h v
    exact ⟨c'.toJson, (upsert_of_container hc field v).trans (map_eq_ok_iff.mpr ⟨c', hc', rfl⟩)⟩

theorem upsert_of_get?_eq_error (h : layout.get? e field = .error fault) (v : Json) :
    layout.upsert e field v = .error fault := by
  rcases hc : layout.container e with fault' | c
  · rw [get?_eq, hc] at h
    rw [upsert_eq, hc, ← Except.error.inj h]
    rfl
  · rw [get?_of_container hc] at h
    rw [upsert_of_container hc, Container.upsert_of_get?_error h]
    rfl

/-- **Writing fails when reading does.** -/
theorem upsert_eq_error_iff (v : Json) :
    layout.upsert e field v = .error fault ↔ layout.get? e field = .error fault := by
  refine ⟨fun h ↦ ?_, fun h ↦ upsert_of_get?_eq_error h v⟩
  rcases hx : layout.get? e field with fault' | x
  · rw [upsert_of_get?_eq_error hx v] at h
    rw [Except.error.inj h]
  · obtain ⟨e', he'⟩ := exists_upsert_of_get?_eq_ok hx v
    rw [he'] at h
    cases h

/-- **A write in place gives what a write gives, and a failed one leaves the entry as it is.** -/
theorem store_eq (v : Json) : layout.store e field v =
    match layout.upsert e field v with
    | .ok e' => (.ok (), e')
    | .error fault => (.error fault, e) := by
  unfold store upsert
  rcases hps : layout.pairs? e with _ | ps
  · cases e <;> rfl
  · dsimp only
    rw [Pairs.store_eq, (pairs?_eq_some_iff.mp hps).2]
    cases Pairs.upsert field v 0 ps <;> rfl

end Layout

/-! ## Amending -/

namespace Action

variable {layout : Layout} {e : Json} {a : Action} {as : List Action} {subs : List Substitution}
  {k : Nat} {x : Option Json} {items : List Json} {fault : ShapeFault}

/-- Why a value is no list of paths. -/
inductive NotPaths (field : String) (v : Json) : ShapeFault → Prop
  | notAList : (∀ items, v ≠ .arr items ∧ v ≠ .obj [("Array", .arr items)]) →
      NotPaths field v (.notAList field)
  | notAString {items : List Json} {i : Nat} :
      v = .arr items ∨ v = .obj [("Array", .arr items)] →
      FirstAt (fun item ↦ ∀ s, item ≠ .str s ∧ item ≠ .obj [("String", .str s)])
        (fun item ↦ ∃ s, item = .str s ∨ item = .obj [("String", .str s)]) items i →
      NotPaths field v (.notAString field i)

theorem substituteItems_eq_error_iff : substituteItems layout subs k items = .error fault ↔
    ∃ i, FirstAt (fun item ↦ ∀ s, item ≠ .str s ∧ item ≠ .obj [("String", .str s)])
        (fun item ↦ ∃ s, item = .str s ∨ item = .obj [("String", .str s)]) items i ∧
      fault = .notAString layout.fields.paths (k + i) := by
  induction items generalizing k with
  | nil => exact iff_of_false (by simp [substituteItems]) fun ⟨i, hi, _⟩ ↦ not_firstAt_nil hi
  | cons item items ih =>
    rw [substituteItems]
    rcases htext : item.text? with _ | path
    · have hnot := Json.text?_eq_none_iff.mp htext
      constructor
      · intro h
        exact ⟨0, firstAt_cons_zero_iff.mpr hnot, (Except.error.inj h).symm⟩
      · rintro ⟨i, hi, rfl⟩
        rcases i with _ | i
        · rfl
        · obtain ⟨⟨s, hs⟩, -⟩ := firstAt_cons_succ_iff.mp hi
          rcases hs with hs | hs
          · exact absurd hs (hnot s).1
          · exact absurd hs (hnot s).2
    · have hsome := Json.text?_eq_some_iff.mp htext
      have hnot : ¬∀ s, item ≠ .str s ∧ item ≠ .obj [("String", .str s)] :=
        fun h ↦ hsome.elim (h path).1 (h path).2
      rw [exists_firstAt_cons_iff hnot (r := fun i ↦ fault = .notAString layout.fields.paths i),
        and_iff_right ⟨path, hsome⟩, ← ih]
      exact map_eq_error_iff

theorem newValue_eq_error_iff : a.newValue layout x = .error fault ↔
    ∃ subs v, a = .paths subs ∧ x = some v ∧ NotPaths layout.fields.paths v fault := by
  rcases hsubs : a.subs? with _ | subs
  · obtain ⟨s, hs⟩ := exists_text_of_subs?_eq_none layout hsubs
    rw [hs]
    refine iff_of_false (by simp) ?_
    rintro ⟨subs, v, rfl, -⟩
    cases hsubs
  · obtain rfl := eq_paths_of_subs?_eq_some hsubs
    rcases x with _ | v
    · exact iff_of_false (by simp [newValue]) (by simp)
    · rw [newValue]
      rcases hlist : v.list? with _ | items
      · have hnot := Json.list?_eq_none_iff.mp hlist
        constructor
        · intro h
          rw [← Except.error.inj h]
          exact ⟨subs, v, rfl, rfl, .notAList hnot⟩
        · rintro ⟨subs', w, -, hw, hpaths⟩
          obtain rfl := Option.some.inj hw
          rcases hpaths with - | @⟨items, i, hitems, -⟩
          · rfl
          · exact absurd hitems (not_or.mpr (hnot items))
      · refine map_eq_error_iff.trans (substituteItems_eq_error_iff.trans ?_)
        simp only [Nat.zero_add]
        constructor
        · rintro ⟨i, hi, rfl⟩
          exact ⟨subs, v, rfl, rfl, .notAString (Json.list?_eq_some_iff.mp hlist) hi⟩
        · rintro ⟨subs', w, -, hw, hpaths⟩
          obtain rfl := Option.some.inj hw
          rcases hpaths with hnot | @⟨items', i, hitems, hi⟩
          · rw [Json.list?_eq_none_iff.mpr hnot] at hlist
            cases hlist
          · rw [Json.list?_eq_some_iff.mpr hitems] at hlist
            exact ⟨i, Option.some.inj hlist ▸ hi, rfl⟩

/-- **How an action fails.** It cannot read its field, or it finds no new value for it; writing adds
no failure. -/
theorem apply_eq_error_iff : a.apply layout e = .error fault ↔
    layout.get? e (a.target layout.fields) = .error fault ∨
      ∃ x, layout.get? e (a.target layout.fields) = .ok x ∧ a.newValue layout x = .error fault := by
  rw [apply, bind_eq_error_iff]
  refine or_congr_right (exists_congr fun x ↦ and_congr_right fun hx ↦ ?_)
  refine bind_eq_error_iff.trans (or_iff_left ?_)
  rintro ⟨v, -, hup⟩
  rw [Layout.upsert_eq_error_iff, hx] at hup
  cases hup

theorem applyAll_cons (layout : Layout) (a : Action) (as : List Action) (e : Json) :
    applyAll layout (a :: as) e = a.apply layout e >>= applyAll layout as := rfl

/-- **How a run of actions fails:** with the first action that does. -/
theorem applyAll_eq_error_iff : applyAll layout as e = .error fault ↔
    ∃ before a after e', as = before ++ a :: after ∧ applyAll layout before e = .ok e' ∧
      a.apply layout e' = .error fault := by
  induction as generalizing e with
  | nil =>
    refine iff_of_false (by simp [applyAll, pure, Except.pure]) ?_
    rintro ⟨before, a, after, e', h, -⟩
    simp at h
  | cons a as ih =>
    rw [applyAll_cons, bind_eq_error_iff]
    constructor
    · rintro (ha | ⟨e₁, ha, h⟩)
      · exact ⟨[], a, as, e, rfl, rfl, ha⟩
      · obtain ⟨before, b, after, e', rfl, hbefore, hb⟩ := ih.mp h
        exact ⟨a :: before, b, after, e', rfl, bind_eq_ok_iff.mpr ⟨e₁, ha, hbefore⟩, hb⟩
    · rintro ⟨before, b, after, e', has, hbefore, hb⟩
      rcases before with _ | ⟨a', before⟩
      · obtain ⟨rfl, rfl⟩ := List.cons.inj has
        exact .inl (Except.ok.inj hbefore ▸ hb)
      · obtain ⟨rfl, rfl⟩ := List.cons.inj has
        obtain ⟨e₁, ha, hbefore⟩ := bind_eq_ok_iff.mp hbefore
        exact .inr ⟨e₁, ha, ih.mpr ⟨before, b, after, e', rfl, hbefore, hb⟩⟩

end Action

/-- **When an entry cannot be read, written or amended.** Reading a field fails exactly for the
reasons of `Layout.Unreadable`. Writing fails exactly when reading does. A write in place makes of
the entry what a write gives, and leaves it as it is when that fails. An action fails exactly when
its field cannot be read, or is to be a list of paths and is none; its write never fails. A rule
fails with its first action that does, on what the actions before it have made of the entry. -/
theorem Layout.fails_iff (layout : Layout) (e : Json) :
    (∀ field fault, layout.get? e field = .error fault ↔ layout.Unreadable e field fault) ∧
    (∀ field v fault, layout.upsert e field v = .error fault ↔
      layout.get? e field = .error fault) ∧
    (∀ field v fault e', layout.store e field v = (.error fault, e') ↔
      layout.get? e field = .error fault ∧ e' = e) ∧
    (∀ field v e', layout.store e field v = (.ok (), e') ↔
      layout.upsert e field v = .ok e') ∧
    (∀ (a : Action) fault, a.apply layout e = .error fault ↔
      layout.get? e (a.target layout.fields) = .error fault ∨
        ∃ subs v, a = .paths subs ∧ layout.get? e layout.fields.paths = .ok (some v) ∧
          Action.NotPaths layout.fields.paths v fault) ∧
    (∀ (a : Action) v fault, ¬∃ x, layout.get? e (a.target layout.fields) = .ok x ∧
      a.newValue layout x = .ok v ∧ layout.upsert e (a.target layout.fields) v = .error fault) ∧
    ∀ (rule : Rule) key fault, rule.amend layout key e = .error fault ↔
      ∃ before a after e' cause, rule.actions = before ++ a :: after ∧
        Action.applyAll layout before e = .ok e' ∧ a.apply layout e' = .error cause ∧
        fault = .unexpectedShape key cause := by
  refine ⟨fun field fault ↦ get?_eq_error_iff, fun field v fault ↦ upsert_eq_error_iff v, ?_, ?_,
    ?_, ?_, ?_⟩
  · intro field v fault e'
    rw [store_eq, ← upsert_eq_error_iff v]
    rcases layout.upsert e field v with fault' | e₁
    · simp [eq_comm]
    · simp
  · intro field v e'
    rw [store_eq]
    rcases layout.upsert e field v with fault | e₁ <;> simp
  · intro a fault
    rw [Action.apply_eq_error_iff]
    refine or_congr_right ⟨?_, ?_⟩
    · rintro ⟨x, hx, hv⟩
      obtain ⟨subs, v, rfl, rfl, hnot⟩ := Action.newValue_eq_error_iff.mp hv
      exact ⟨subs, v, rfl, hx, hnot⟩
    · rintro ⟨subs, v, rfl, hx, hnot⟩
      exact ⟨some v, hx, Action.newValue_eq_error_iff.mpr ⟨subs, v, rfl, rfl, hnot⟩⟩
  · rintro a v fault ⟨x, hx, -, hup⟩
    rw [upsert_eq_error_iff, hx] at hup
    cases hup
  · intro rule key fault
    rw [Rule.amend, mapError_eq_error_iff]
    constructor
    · rintro ⟨cause, hcause, rfl⟩
      obtain ⟨before, a, after, e', has, hbefore, ha⟩ := Action.applyAll_eq_error_iff.mp hcause
      exact ⟨before, a, after, e', cause, has, hbefore, ha, rfl⟩
    · rintro ⟨before, a, after, e', cause, has, hbefore, ha, rfl⟩
      exact ⟨cause, Action.applyAll_eq_error_iff.mpr ⟨before, a, after, e', has, hbefore, ha⟩, rfl⟩

end DeviceSnapshot
