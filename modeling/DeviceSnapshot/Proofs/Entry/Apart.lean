import DeviceSnapshot.Proofs.Entry.Container
import Mathlib.Data.Finset.Basic
import Mathlib.Data.Finset.Dedup

/-!
# Entries that differ in some fields only

Two containers agree apart from a set of fields when they have the same names in the same places and
the same values everywhere, except that the value of the first pair with a name in the set may
differ. Actions that overwrite all of these fields remove the difference:
`applyAllTo_eq_of_blank_eq`.

## Blanking

The relation is worked with through a function. `blank` puts a null in place of the first value of
each given field; containers that agree apart from the fields become equal when these are blanked.
Reading commutes with blanking, and a write commutes with it up to the written field, which need
not be blanked any more. So an action moves an equation between blanked containers to one in which
its own field is compared as well, and when every field has been written the equation is one between
the containers themselves.
-/

namespace DeviceSnapshot

/-! ## Pairs -/

namespace Pairs

/-- The same pairs in the same places, apart from the values of the first pairs with given names. -/
def AgreeApart (names : Finset String) (ps qs : List Json) : Prop :=
  ∀ i : Nat, ps[i]? = qs[i]? ∨ ∃ name ∈ names, ∃ v w, ps[i]? = some (.arr [.str name, v]) ∧
    qs[i]? = some (.arr [.str name, w]) ∧ ∀ j < i, ∀ u, ps[j]? ≠ some (.arr [.str name, u])

/-- The pairs with a null in place of the first value under each of the given names. -/
def blank (names : Finset String) : List Json → List Json
  | [] => []
  | p :: ps =>
    match p.pair? with
    | none => p :: blank names ps
    | some (n, _) =>
      if n ∈ names then .arr [.str n, .null] :: blank (names.erase n) ps else p :: blank names ps

variable {names : Finset String} {name : String} {v : Json} {i : Nat} {ps qs : List Json}

theorem blank_cons_of_pair?_none {p : Json} (h : p.pair? = none) :
    blank names (p :: ps) = p :: blank names ps := by
  rw [blank, h]

theorem blank_cons_of_mem (h : name ∈ names) :
    blank names (.arr [.str name, v] :: ps)
      = .arr [.str name, .null] :: blank (names.erase name) ps := by
  rw [blank, pair?_arr]
  exact if_pos h

theorem blank_cons_of_not_mem (h : name ∉ names) :
    blank names (.arr [.str name, v] :: ps) = .arr [.str name, v] :: blank names ps := by
  rw [blank, pair?_arr]
  exact if_neg h

@[simp] theorem blank_empty (ps : List Json) : blank ∅ ps = ps := by
  induction ps with
  | nil => rfl
  | cons p ps ih =>
    rw [blank]
    split
    · rw [ih]
    · rw [if_neg (Finset.notMem_empty _), ih]

theorem get?_blank_of_not_mem (h : name ∉ names) :
    get? name i (blank names ps) = get? name i ps := by
  induction ps generalizing names i with
  | nil => rfl
  | cons p ps ih =>
    rcases pair?_cases p with hp | ⟨n, u, rfl⟩
    · rw [blank_cons_of_pair?_none hp, get?_malformed hp, get?_malformed hp]
    · by_cases hn : n ∈ names
      · have hne : n ≠ name := fun heq ↦ h (heq ▸ hn)
        rw [blank_cons_of_mem hn, get?_pair, get?_pair, if_neg hne, if_neg hne,
          ih fun hmem ↦ h (Finset.mem_of_mem_erase hmem)]
      · rw [blank_cons_of_not_mem hn, get?_pair, get?_pair, ih h]

theorem get?_blank_of_mem (h : name ∈ names) :
    get? name i (blank names ps) = (get? name i ps).map (·.map fun _ ↦ .null) := by
  induction ps generalizing names i with
  | nil => rfl
  | cons p ps ih =>
    rcases pair?_cases p with hp | ⟨n, u, rfl⟩
    · rw [blank_cons_of_pair?_none hp, get?_malformed hp, get?_malformed hp]
      rfl
    · by_cases hname : n = name
      · subst hname
        rw [blank_cons_of_mem h, get?_pair, get?_pair, if_pos rfl, if_pos rfl]
        rfl
      · by_cases hn : n ∈ names
        · rw [blank_cons_of_mem hn, get?_pair, get?_pair, if_neg hname, if_neg hname,
            ih (Finset.mem_erase.mpr ⟨Ne.symm hname, h⟩)]
        · rw [blank_cons_of_not_mem hn, get?_pair, get?_pair, if_neg hname,
            if_neg hname, ih h]

theorem upsert_blank : upsert name v i (blank names ps)
    = (upsert name v i ps).map (blank (names.erase name)) := by
  -- The set of names varies in the induction: behind the first pair with a name the name is gone.
  induction ps generalizing names i with
  | nil =>
    change Except.ok _ = Except.ok _
    rw [blank_cons_of_not_mem (Finset.notMem_erase name names), blank]
  | cons p ps ih =>
    rcases pair?_cases p with hp | ⟨n, u, rfl⟩
    · rw [blank_cons_of_pair?_none hp, upsert_malformed hp, upsert_malformed hp]
      rfl
    · by_cases hname : n = name
      · subst hname
        rw [upsert_pair, if_pos rfl, Except.map,
          blank_cons_of_not_mem (Finset.notMem_erase n names)]
        by_cases hn : n ∈ names
        · rw [blank_cons_of_mem hn, upsert_pair, if_pos rfl]
        · rw [blank_cons_of_not_mem hn, upsert_pair, if_pos rfl,
            Finset.erase_eq_of_notMem hn]
      · rw [upsert_pair, if_neg hname]
        by_cases hn : n ∈ names
        · rw [blank_cons_of_mem hn, upsert_pair, if_neg hname, ih]
          cases upsert name v (i + 1) ps with
          | error fault => rfl
          | ok rs =>
            rw [Except.map, Except.map, Except.map, Except.map,
              blank_cons_of_mem (Finset.mem_erase.mpr ⟨hname, hn⟩), Finset.erase_right_comm]
        · rw [blank_cons_of_not_mem hn, upsert_pair, if_neg hname, ih]
          cases upsert name v (i + 1) ps with
          | error fault => rfl
          | ok rs =>
            rw [Except.map, Except.map, Except.map, Except.map,
              blank_cons_of_not_mem fun hmem ↦ hn (Finset.mem_of_mem_erase hmem)]

/-- Blanking removes the difference between pairs that agree apart from the blanked names. -/
theorem AgreeApart.blank_eq (h : AgreeApart names ps qs) : blank names ps = blank names qs := by
  induction ps generalizing names qs with
  | nil =>
    cases qs with
    | nil => rfl
    | cons q qs => simpa using h 0
  | cons p ps ih =>
    cases qs with
    | nil => simpa using h 0
    | cons q qs =>
      -- What the first pair leaves open for the others: its own name is no longer first there.
      have htail : ∀ n u, p = .arr [.str n, u] → AgreeApart (names.erase n) ps qs := by
        rintro n u rfl i
        rcases h (i + 1) with heq | ⟨name, hname, v, w, hv, hw, hfirst⟩
        · exact .inl heq
        · refine .inr ⟨name, Finset.mem_erase.mpr ⟨?_, hname⟩, v, w, hv, hw, fun j hj u' ↦ ?_⟩
          · rintro rfl
            exact hfirst 0 (Nat.succ_pos i) u rfl
          · exact hfirst (j + 1) (Nat.succ_lt_succ hj) u'
      have htail' : AgreeApart names ps qs := by
        intro i
        rcases h (i + 1) with heq | ⟨name, hname, v, w, hv, hw, hfirst⟩
        · exact .inl heq
        · exact .inr ⟨name, hname, v, w, hv, hw, fun j hj u' ↦
            hfirst (j + 1) (Nat.succ_lt_succ hj) u'⟩
      rcases h 0 with heq | ⟨name, hname, v, w, hv, hw, -⟩
      · obtain rfl : p = q := Option.some.inj heq
        rcases pair?_cases p with hp | ⟨n, u, rfl⟩
        · rw [blank_cons_of_pair?_none hp, blank_cons_of_pair?_none hp, ih htail']
        · by_cases hn : n ∈ names
          · rw [blank_cons_of_mem hn, blank_cons_of_mem hn, ih (htail n u rfl)]
          · rw [blank_cons_of_not_mem hn, blank_cons_of_not_mem hn, ih htail']
      · obtain rfl : p = .arr [.str name, v] := Option.some.inj hv
        obtain rfl : q = .arr [.str name, w] := Option.some.inj hw
        rw [blank_cons_of_mem hname, blank_cons_of_mem hname, ih (htail name v rfl)]

end Pairs

/-! ## Members -/

namespace Keyed

variable {names : Finset String} {name : String} {v : Json} {ms ns : Keyed Json}

def AgreeApart (names : Finset String) (ms ns : Keyed Json) : Prop :=
  ∀ i : Nat, ms[i]? = ns[i]? ∨
    ∃ name ∈ names, ∃ v w, ms[i]? = some (name, v) ∧ ns[i]? = some (name, w)

def blank (names : Finset String) (ms : Keyed Json) : Keyed Json :=
  ms.map fun e ↦ if e.1 ∈ names then (e.1, .null) else e

@[simp] theorem blank_cons (names : Finset String) (name : String) (v : Json) (ms : Keyed Json) :
    blank names ((name, v) :: ms)
      = (name, if name ∈ names then .null else v) :: blank names ms := by
  rw [blank, List.map_cons, ← blank]
  split <;> rfl

@[simp] theorem blank_empty (ms : Keyed Json) : blank ∅ ms = ms := by
  rw [blank]
  simp

@[simp] theorem keys_blank (names : Finset String) (ms : Keyed Json) :
    keys (blank names ms) = keys ms := by
  induction ms with
  | nil => rfl
  | cons e ms ih => rw [blank_cons, keys_cons, ih, keys_cons]

theorem get?_blank_of_not_mem (h : name ∉ names) : get? (blank names ms) name = get? ms name := by
  induction ms with
  | nil => rfl
  | cons e ms ih =>
    obtain ⟨k, u⟩ := e
    rw [blank_cons, get?, get?, ih]
    by_cases hk : k = name
    · rw [if_pos hk, if_pos hk, if_neg (hk ▸ h)]
    · rw [if_neg hk, if_neg hk]

theorem get?_blank_of_mem (h : name ∈ names) :
    get? (blank names ms) name = (get? ms name).map fun _ ↦ .null := by
  induction ms with
  | nil => rfl
  | cons e ms ih =>
    obtain ⟨k, u⟩ := e
    rw [blank_cons, get?, get?, ih]
    by_cases hk : k = name
    · rw [if_pos hk, if_pos hk, if_pos (hk ▸ h), Option.map_some]
    · rw [if_neg hk, if_neg hk]

private theorem blank_erase (h : name ∉ keys ms) :
    blank (names.erase name) ms = blank names ms := by
  refine List.map_congr_left fun e he ↦ ?_
  have hne : e.1 ≠ name := fun heq ↦ h (heq ▸ List.mem_map_of_mem he)
  simp [hne]

theorem insert_blank (hms : ms.Ordered) :
    insert (blank names ms) name v = blank (names.erase name) (insert ms name v) := by
  induction ms with
  | nil => simp [insert, blank]
  | cons e ms ih =>
    obtain ⟨k, u⟩ := e
    obtain ⟨hlt, hrest⟩ := ordered_cons_iff.mp hms
    rw [blank_cons, insert, insert]
    by_cases hk : name = k
    · subst hk
      rw [if_pos rfl, if_pos rfl, blank_cons, if_neg (Finset.notMem_erase name names),
        blank_erase fun hmem ↦ String.lt_irrefl name (hlt name hmem)]
    · have hmem : k ∈ names.erase name ↔ k ∈ names := by
        rw [Finset.mem_erase, and_iff_right (Ne.symm hk)]
      rw [if_neg hk, if_neg hk]
      by_cases hlt' : name < k
      · have hnot : name ∉ keys ms := fun hin ↦ String.lt_asymm hlt' (hlt name hin)
        rw [if_pos hlt', if_pos hlt', blank_cons, blank_cons,
          if_neg (Finset.notMem_erase name names), blank_erase hnot]
        simp only [hmem]
      · rw [if_neg hlt', if_neg hlt', blank_cons, ih hrest]
        simp only [hmem]

theorem AgreeApart.blank_eq (h : AgreeApart names ms ns) : blank names ms = blank names ns := by
  refine List.ext_getElem? fun i ↦ ?_
  rw [blank, blank, List.getElem?_map, List.getElem?_map]
  rcases h i with heq | ⟨name, hname, v, w, hv, hw⟩
  · rw [heq]
  · rw [hv, hw, Option.map_some, Option.map_some, if_pos hname, if_pos hname]

end Keyed

/-! ## Containers -/

namespace Container

/-- The same container, with the same fields in the same places and the same values apart from those
of the given fields. -/
def AgreeApart (fields : Finset String) : Container → Container → Prop
  | .pairs ps, .pairs qs => Pairs.AgreeApart fields ps qs
  | .members ms, .members ns => Keyed.AgreeApart fields ms ns
  | _, _ => False

/-- The container with a null in place of the value of each of the given fields. -/
def blank (fields : Finset String) : Container → Container
  | .pairs ps => .pairs (Pairs.blank fields ps)
  | .members ms => .members (Keyed.blank fields ms)

variable {fields : Finset String} {field : String} {v : Json} {c c' : Container}

@[simp] theorem blank_empty (c : Container) : c.blank ∅ = c := by
  cases c <;> simp [blank]

theorem get?_blank_of_not_mem (h : field ∉ fields) :
    (c.blank fields).get? field = c.get? field := by
  cases c with
  | pairs ps => exact Pairs.get?_blank_of_not_mem h
  | members ms => rw [blank, get?, get?, Keyed.get?_blank_of_not_mem h]

theorem get?_blank_of_mem (h : field ∈ fields) :
    (c.blank fields).get? field = (c.get? field).map (·.map fun _ ↦ .null) := by
  cases c with
  | pairs ps => exact Pairs.get?_blank_of_mem h
  | members ms => rw [blank, get?, get?, Keyed.get?_blank_of_mem h, Except.map]

theorem upsert_blank (hc : c.Ordered) (fields : Finset String) (field : String) (v : Json) :
    (c.blank fields).upsert field v
      = (c.upsert field v).map (blank (fields.erase field)) := by
  cases c with
  | pairs ps =>
    rw [blank, upsert, upsert, Pairs.upsert_blank]
    cases Pairs.upsert field v 0 ps <;> rfl
  | members ms =>
    rw [blank, upsert, upsert, Keyed.insert_blank hc]
    rfl

theorem Ordered.blank (hc : c.Ordered) (fields : Finset String) : (c.blank fields).Ordered := by
  cases c with
  | pairs ps => trivial
  | members ms =>
    rw [Container.blank, Ordered, Keyed.Ordered, Keyed.keys_blank]
    exact hc

theorem blank_of_upsert {d : Container} {w : Json} (hc : c.Ordered)
    (hv : c.get? field = .ok (some v)) (hd : c.upsert field w = .ok d) :
    d.blank {field} = c.blank {field} := by
  have hnull : ∀ e : Container, e.Ordered → ∀ u, e.get? field = .ok (some u) →
      (e.blank {field}).upsert field .null = .ok (e.blank {field}) := by
    intro e he u hu
    refine upsert_of_get?_some (he.blank _) ?_
    rw [get?_blank_of_mem (Finset.mem_singleton_self field), hu]
    rfl
  have hdnull := hnull d (hc.upsert hd) w (get?_upsert_self hd)
  have hcnull := hnull c hc v hv
  rw [upsert_blank (hc.upsert hd), upsert_upsert_self hd, ← upsert_blank hc, hcnull] at hdnull
  exact (Except.ok.inj hdnull).symm

theorem AgreeApart.blank_eq (h : c.AgreeApart fields c') : c.blank fields = c'.blank fields := by
  cases c <;> cases c'
  · exact congrArg pairs (Pairs.AgreeApart.blank_eq h)
  · exact h.elim
  · exact h.elim
  · exact congrArg members (Keyed.AgreeApart.blank_eq h)

end Container

/-! ## Actions -/

namespace Action

variable {layout : Layout} {c c' : Container}

def targets (layout : Layout) (as : List Action) : Finset String :=
  (as.map (target layout.fields)).toFinset

/-- The first action on a field. -/
def firstOn? (layout : Layout) (field : String) (as : List Action) : Option Action :=
  as.find? (target layout.fields · = field)

theorem mem_targets_iff {field : String} {as : List Action} :
    field ∈ targets layout as ↔ ∃ a ∈ as, a.target layout.fields = field := by
  rw [targets, List.mem_toFinset, List.mem_map]

theorem firstOn?_cons_self (a : Action) (as : List Action) :
    firstOn? layout (a.target layout.fields) (a :: as) = some a := by
  rw [firstOn?, List.find?_cons_of_pos (by simp)]

theorem firstOn?_cons_of_ne {field : String} {a : Action} {as : List Action}
    (h : field ≠ a.target layout.fields) :
    firstOn? layout field (a :: as) = firstOn? layout field as := by
  rw [firstOn?, List.find?_cons_of_neg (by simpa using Ne.symm h), ← firstOn?]

theorem ordered_of_applyTo {a : Action} (hc : c.Ordered) (h : a.applyTo layout c = .ok c') :
    c'.Ordered := by
  obtain ⟨x, v, -, -, hup⟩ := applyTo_eq_ok_iff.mp h
  exact hc.upsert hup

theorem get?_applyTo_of_ne {a : Action} {field : String} (h : a.applyTo layout c = .ok c')
    (hne : field ≠ a.target layout.fields) : c'.get? field = c.get? field := by
  obtain ⟨x, v, -, -, hup⟩ := applyTo_eq_ok_iff.mp h
  exact Container.get?_upsert_of_ne hup hne

/-- Two reads of a field in containers that are equal after blanking: both fail in one way, or both
find nothing, or both find something. -/
theorem get?_rel_of_blank_eq {fields : Finset String}
    (h : c.blank fields = c'.blank fields) (field : String) :
    (∃ fault, c.get? field = .error fault ∧ c'.get? field = .error fault) ∨
      ∃ x x', c.get? field = .ok x ∧ c'.get? field = .ok x' ∧
        (field ∉ fields → x = x') ∧ (x = none ↔ x' = none) := by
  by_cases hf : field ∈ fields
  · have heq := Container.get?_blank_of_mem (c := c) hf
    rw [h, Container.get?_blank_of_mem hf] at heq
    cases hx : c.get? field with
    | error fault =>
      cases hx' : c'.get? field with
      | error fault' =>
        rw [hx, hx'] at heq
        exact .inl ⟨fault, rfl, by rw [Except.error.inj heq]⟩
      | ok x' => simp [hx, hx', Except.map] at heq
    | ok x =>
      cases hx' : c'.get? field with
      | error fault' => simp [hx, hx', Except.map] at heq
      | ok x' =>
        rw [hx, hx'] at heq
        refine .inr ⟨x, x', rfl, rfl, fun hnot ↦ absurd hf hnot, ?_⟩
        have hmap := congrArg Option.isSome (Except.ok.inj heq)
        rw [Option.isSome_map, Option.isSome_map] at hmap
        rw [← Option.not_isSome_iff_eq_none, ← Option.not_isSome_iff_eq_none, hmap]
  · have heq := Container.get?_blank_of_not_mem (c := c) hf
    rw [h, Container.get?_blank_of_not_mem hf] at heq
    cases hx : c.get? field with
    | error fault => exact .inl ⟨fault, rfl, heq.trans hx⟩
    | ok x => exact .inr ⟨x, x, rfl, heq.trans hx, fun _ ↦ rfl, Iff.rfl⟩

/-- **One action on containers that differ in some fields only.** When it gives its own field one
value in both, its field need not be among those that differ afterwards. -/
private theorem applyTo_rel_of_blank_eq {fields : Finset String} {a : Action} (hc : c.Ordered)
    (hc' : c'.Ordered) (h : c.blank fields = c'.blank fields)
    (hvalue : ∀ x x', c.get? (a.target layout.fields) = .ok x →
      c'.get? (a.target layout.fields) = .ok x' → a.newValue layout x = a.newValue layout x') :
    (∃ fault, a.applyTo layout c = .error fault ∧ a.applyTo layout c' = .error fault) ∨
      ∃ d d', a.applyTo layout c = .ok d ∧ a.applyTo layout c' = .ok d' ∧
        d.blank (fields.erase (a.target layout.fields))
          = d'.blank (fields.erase (a.target layout.fields)) := by
  rcases get?_rel_of_blank_eq h (a.target layout.fields) with
    ⟨fault, hx, hx'⟩ | ⟨x, x', hx, hx', -, -⟩
  · refine .inl ⟨fault, ?_, ?_⟩
    · rw [applyTo, hx]
      rfl
    · rw [applyTo, hx']
      rfl
  · have hv := hvalue x x' hx hx'
    cases hnew : a.newValue layout x' with
    | error fault =>
      rw [hnew] at hv
      refine .inl ⟨fault, ?_, ?_⟩
      · rw [applyTo, hx]
        exact congrArg (· >>= fun v ↦ c.upsert (a.target layout.fields) v) hv
      · rw [applyTo, hx']
        exact congrArg (· >>= fun v ↦ c'.upsert (a.target layout.fields) v) hnew
    | ok v =>
      rw [hnew] at hv
      obtain ⟨d, hd⟩ := Container.upsert_of_get?_ok hx v
      obtain ⟨d', hd'⟩ := Container.upsert_of_get?_ok hx' v
      refine .inr ⟨d, d', applyTo_eq_ok_iff.mpr ⟨x, v, hx, hv, hd⟩,
        applyTo_eq_ok_iff.mpr ⟨x', v, hx', hnew, hd'⟩, ?_⟩
      have hup := Container.upsert_blank hc fields (a.target layout.fields) v
      rw [h, Container.upsert_blank hc', hd, hd'] at hup
      exact (Except.ok.inj hup).symm

/-- **Fields that are overwritten make no difference.** Containers that are equal after blanking
some fields have one result under actions that overwrite all of these fields, if in both the first
action on each of them gives it the same value. -/
theorem applyAllTo_eq_of_blank_eq {as : List Action} {fields : Finset String}
    (hfields : fields ⊆ targets layout as) (hc : c.Ordered) (hc' : c'.Ordered)
    (h : c.blank fields = c'.blank fields)
    (hvalue : ∀ field ∈ fields, ∀ a, firstOn? layout field as = some a → ∀ x x',
      c.get? field = .ok x → c'.get? field = .ok x' → a.newValue layout x = a.newValue layout x') :
    applyAllTo layout as c = applyAllTo layout as c' := by
  -- Each action takes its own field out of the set, so at the end of the induction it is empty.
  induction as generalizing c c' fields with
  | nil =>
    obtain rfl : fields = ∅ := Finset.subset_empty.mp hfields
    rw [Container.blank_empty, Container.blank_empty] at h
    rw [h]
  | cons a as ih =>
    -- A field outside the set has one value in both containers to begin with.
    have hown : ∀ x x', c.get? (a.target layout.fields) = .ok x →
        c'.get? (a.target layout.fields) = .ok x' → a.newValue layout x = a.newValue layout x' := by
      intro x x' hx hx'
      by_cases hmem : a.target layout.fields ∈ fields
      · exact hvalue _ hmem a (firstOn?_cons_self a as) x x' hx hx'
      · have heq := Container.get?_blank_of_not_mem (c := c) hmem
        rw [h, Container.get?_blank_of_not_mem hmem, hx, hx'] at heq
        rw [Except.ok.inj heq]
    rw [applyAllTo_cons, applyAllTo_cons]
    rcases applyTo_rel_of_blank_eq hc hc' h hown with ⟨fault, hd, hd'⟩ | ⟨d, d', hd, hd', hblank⟩
    · rw [hd, hd']
    · rw [hd, hd']
      refine ih ?_ (ordered_of_applyTo hc hd) (ordered_of_applyTo hc' hd') hblank ?_
      · intro field hfield
        obtain ⟨hne, hmem⟩ := Finset.mem_erase.mp hfield
        obtain ⟨b, hb, hbt⟩ := mem_targets_iff.mp (hfields hmem)
        rcases List.mem_cons.mp hb with rfl | hb
        · exact absurd hbt.symm hne
        · exact mem_targets_iff.mpr ⟨b, hb, hbt⟩
      · intro field hfield b hb x x' hx hx'
        obtain ⟨hne, hmem⟩ := Finset.mem_erase.mp hfield
        rw [get?_applyTo_of_ne hd hne] at hx
        rw [get?_applyTo_of_ne hd' hne] at hx'
        exact hvalue field hmem b (by rw [firstOn?_cons_of_ne hne, hb]) x x' hx hx'

/-- **A write that is overwritten makes no difference,** if the action that overwrites it makes the
same of the written value and of the value before. -/
theorem applyAllTo_of_upsert {as : List Action} {field : String} {v w : Json} {d : Container}
    (hfield : field ∈ targets layout as) (hc : c.Ordered) (hv : c.get? field = .ok (some v))
    (hd : c.upsert field w = .ok d)
    (hvalue : ∀ a, firstOn? layout field as = some a →
      a.newValue layout (some w) = a.newValue layout (some v)) :
    applyAllTo layout as d = applyAllTo layout as c := by
  refine applyAllTo_eq_of_blank_eq (Finset.singleton_subset_iff.mpr hfield) (hc.upsert hd) hc
    (Container.blank_of_upsert hc hv hd) ?_
  intro field' hfield' a ha x x' hx hx'
  obtain rfl := Finset.mem_singleton.mp hfield'
  rw [Container.get?_upsert_self hd] at hx
  rw [hv] at hx'
  rw [← Except.ok.inj hx, ← Except.ok.inj hx']
  exact hvalue a ha

end Action

end DeviceSnapshot
