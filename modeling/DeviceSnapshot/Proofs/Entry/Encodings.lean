import DeviceSnapshot.Record
import DeviceSnapshot.Proofs.Entry.Form

/-!
# Two encodings of one entry

The plain and the tagged encoding store the same fields in different ways. In the plain one the
entry is an object and its values are bare; in the tagged one the entry is a pairs container, the
pairs stand in any order, and every text and every list is wrapped. A rule does the same to both.

## The relation

Two values read the same when they are the same text, the same list, or the same scalar, each bare
or wrapped (`Json.ReadsSame`). Two containers read the same when all their fields do
(`Container.ReadsSame`). Nothing is said about the order of the pairs, and nothing about which
values are wrapped: a text that is written over a wrapped list comes out bare in both encodings, so
the entries drift apart in their form, and only how they read is kept.

Reading a field, finding its new value and writing it each keep the relation, or fail in both
encodings for the same reason; hence every run of actions does.
-/

namespace DeviceSnapshot

/-! ## Results of two runs -/

/-- Two runs that fail with one fault, or end with values in a relation. -/
inductive SameResult {ε α β : Type} (R : α → β → Prop) : Except ε α → Except ε β → Prop where
  | error (fault : ε) : SameResult R (.error fault) (.error fault)
  | ok {a : α} {b : β} (h : R a b) : SameResult R (.ok a) (.ok b)

namespace SameResult

variable {ε α β γ δ : Type} {R : α → β → Prop} {S : γ → δ → Prop} {x : Except ε α}
  {y : Except ε β}

/-- What two runs do next they do alike, if they do it alike on related values. -/
theorem bind {f : α → Except ε γ} {g : β → Except ε δ} (h : SameResult R x y)
    (hfg : ∀ a b, R a b → SameResult S (f a) (g b)) : SameResult S (x >>= f) (y >>= g) := by
  cases h with
  | error fault => exact .error fault
  | ok hab => exact hfg _ _ hab

theorem map {f : α → γ} {g : β → δ} (h : SameResult R x y)
    (hfg : ∀ a b, R a b → S (f a) (g b)) : SameResult S (x.map f) (y.map g) := by
  cases h with
  | error fault => exact .error fault
  | ok hab => exact .ok (hfg _ _ hab)

end SameResult

/-! ## Values that read the same -/

namespace Json

/-- A value that is no text, no array and no object. -/
def IsScalar : Json → Prop
  | .null | .bool _ | .int _ | .float _ => True
  | .str _ | .arr _ | .obj _ => False

/-- Two values that are the same text, the same list or the same scalar, bare or wrapped. -/
inductive ReadsSame : Json → Json → Prop where
  | text {v w : Json} {s : String} (hv : v.text? = some s) (hw : w.text? = some s) :
      ReadsSame v w
  | list {v w : Json} {items items' : List Json} (hv : v.list? = some items)
      (hw : w.list? = some items') (h : List.Forall₂ ReadsSame items items') : ReadsSame v w
  | scalar {v : Json} (hv : v.IsScalar) : ReadsSame v v

mutual

/-- A value without objects: a scalar, a text, or an array of such values. -/
def Bare : Json → Prop
  | .arr items => BareItems items
  | .obj _ => False
  | _ => True

def BareItems : List Json → Prop
  | [] => True
  | v :: vs => Bare v ∧ BareItems vs

end

mutual

/-- A value in the tagged encoding: every text and every array is wrapped. -/
def tag : Json → Json
  | .str s => .wrap "String" (.str s)
  | .arr items => .wrap "Array" (.arr (tagItems items))
  | v => v

def tagItems : List Json → List Json
  | [] => []
  | v :: vs => tag v :: tagItems vs

end

mutual

/-- **A value reads the same in both encodings.** -/
theorem readsSame_tag : ∀ v : Json, v.Bare → v.ReadsSame v.tag
  | .null, _ | .bool _, _ | .int _, _ | .float _, _ => .scalar trivial
  | .str _, _ => .text rfl rfl
  | .arr items, h => .list rfl rfl (forall₂_readsSame_tagItems items h)
  | .obj _, h => h.elim

theorem forall₂_readsSame_tagItems : ∀ items : List Json, BareItems items →
    List.Forall₂ ReadsSame items (tagItems items)
  | [], _ => .nil
  | v :: vs, h => .cons (readsSame_tag v h.1) (forall₂_readsSame_tagItems vs h.2)

end

theorem list?_of_text? {v : Json} {s : String} (h : v.text? = some s) : v.list? = none := by
  cases hlist : v.list? with
  | none => rfl
  | some items => rcases eq_of_list?_eq_some hlist with rfl | rfl <;> cases h

theorem list?_of_isScalar {v : Json} (h : v.IsScalar) : v.list? = none := by
  cases v <;> first | rfl | exact h.elim

theorem ReadsSame.text?_eq {v w : Json} (h : v.ReadsSame w) : v.text? = w.text? := by
  cases h with
  | text hv hw => rw [hv, hw]
  | list hv hw _ =>
    have hnone : ∀ {u : Json} {items : List Json}, u.list? = some items → u.text? = none := by
      intro u items hu
      cases htext : u.text? with
      | none => rfl
      | some s => rw [list?_of_text? htext] at hu; cases hu
    rw [hnone hv, hnone hw]
  | scalar hv => rfl

theorem ReadsSame.list?_rel {v w : Json} (h : v.ReadsSame w) :
    Option.Rel (List.Forall₂ ReadsSame) v.list? w.list? := by
  cases h with
  | text hv hw => rw [list?_of_text? hv, list?_of_text? hw]; exact .none
  | list hv hw h => rw [hv, hw]; exact .some h
  | scalar hv => rw [list?_of_isScalar hv]; exact .none

end Json

open Json

/-! ## What actions write -/

namespace Action

variable {layout layout' : Layout}

theorem readsSame_stringLike (x y : Option Json) (s : String) :
    (layout.stringLike x s).ReadsSame (layout'.stringLike y s) :=
  .text (Layout.text?_stringLike layout x s) (Layout.text?_stringLike layout' y s)

theorem substituteItems_rel (hfields : layout.fields = layout'.fields)
    (subs : List Substitution) {items items' : List Json}
    (h : List.Forall₂ ReadsSame items items') (i : Nat) :
    SameResult (List.Forall₂ ReadsSame) (substituteItems layout subs i items)
      (substituteItems layout' subs i items') := by
  induction h generalizing i with
  | nil => exact .ok .nil
  | @cons item item' items items' hitem _ ih =>
    cases hpath : item.text? with
    | none =>
      have hpath' : item'.text? = none := hitem.text?_eq ▸ hpath
      rw [substituteItems, substituteItems, hpath, hpath', hfields]
      exact .error _
    | some path =>
      have hpath' : item'.text? = some path := hitem.text?_eq ▸ hpath
      rw [substituteItems, substituteItems, hpath, hpath']
      exact (ih (i + 1)).map fun _ _ hrest ↦ .cons (readsSame_stringLike _ _ _) hrest

/-- **An action gives values that read the same new values that read the same.** -/
theorem newValue_rel (hfields : layout.fields = layout'.fields) (a : Action) {x y : Option Json}
    (h : Option.Rel ReadsSame x y) :
    SameResult ReadsSame (a.newValue layout x) (a.newValue layout' y) := by
  cases a with
  | devpath s => exact .ok (readsSame_stringLike x y s)
  | dmUuid s => exact .ok (readsSame_stringLike x y s)
  | paths subs =>
    cases h with
    | none =>
      exact .ok (.list (Layout.list?_listLike layout none [])
        (Layout.list?_listLike layout' none []) .nil)
    | @some v w hvw =>
      have hlist := hvw.list?_rel
      rw [newValue, newValue]
      generalize v.list? = x, w.list? = y at hlist ⊢
      cases hlist with
      | none =>
        rw [hfields]
        exact .error _
      | some hitems =>
        exact (substituteItems_rel hfields subs hitems 0).map fun _ _ hnew ↦
          .list (Layout.list?_listLike layout _ _) (Layout.list?_listLike layout' _ _) hnew

end Action

/-! ## Containers that read the same -/

namespace Container

/-- Every field reads the same in both containers. -/
def ReadsSame (c d : Container) : Prop :=
  ∀ field, SameResult (Option.Rel Json.ReadsSame) (c.get? field) (d.get? field)

theorem ReadsSame.upsert {c d : Container} (h : c.ReadsSame d) (field : String) {v w : Json}
    (hvw : v.ReadsSame w) :
    SameResult ReadsSame (c.upsert field v) (d.upsert field w) := by
  have hfield := h field
  generalize hc : c.get? field = x, hd : d.get? field = y at hfield
  cases hfield with
  | error fault =>
    rw [upsert_of_get?_error hc, upsert_of_get?_error hd]
    exact .error fault
  | ok =>
    obtain ⟨c', hc'⟩ := upsert_of_get?_ok hc v
    obtain ⟨d', hd'⟩ := upsert_of_get?_ok hd w
    rw [hc', hd']
    refine .ok fun field' ↦ ?_
    by_cases hne : field' = field
    · rw [hne, get?_upsert_self hc', get?_upsert_self hd']
      exact .ok (.some hvw)
    · rw [get?_upsert_of_ne hc' hne, get?_upsert_of_ne hd' hne]
      exact h field'

end Container

namespace Action

variable {layout layout' : Layout} {c d : Container}

/-- **The step keeps the relation.** -/
theorem applyTo_rel (hfields : layout.fields = layout'.fields) (a : Action)
    (h : c.ReadsSame d) :
    SameResult Container.ReadsSame (a.applyTo layout c) (a.applyTo layout' d) := by
  rw [applyTo, applyTo, ← hfields]
  exact (h _).bind fun x y hxy ↦ (newValue_rel hfields a hxy).bind fun v w hvw ↦ h.upsert _ hvw

/-- **A run keeps the relation.** -/
theorem applyAllTo_rel (hfields : layout.fields = layout'.fields) (as : List Action)
    (h : c.ReadsSame d) :
    SameResult Container.ReadsSame (applyAllTo layout as c) (applyAllTo layout' as d) := by
  induction as generalizing c d with
  | nil => exact .ok h
  | cons a as ih =>
    rw [applyAllTo_cons, applyAllTo_cons]
    exact (applyTo_rel hfields a h).bind fun c' d' h' ↦ ih h'

end Action

/-! ## Pairs with distinct names -/

namespace Json

def field (e : String × Json) : Json := .arr [.str e.1, e.2]

/-- The pairs container with the given fields. -/
def ofFields (fields : List (String × Json)) : Json := .wrap "Object" (.arr (fields.map field))

end Json

namespace Pairs

variable {name : String} {v : Json} {i : Nat}

theorem get?_map_field (name : String) (i : Nat) (fields : List (String × Json)) :
    get? name i (fields.map field) = .ok (Keyed.get? fields name) := by
  induction fields generalizing i with
  | nil => rfl
  | cons e fields ih =>
    rw [List.map_cons, field, get?_pair, Keyed.get?, ih]
    split <;> rfl

theorem of_upsert_map_field {fields : List (String × Json)} {qs : List Json}
    (h : upsert name v i (fields.map field) = .ok qs) :
    ∃ fields', qs = fields'.map field ∧ Keyed.keys fields' =
      if name ∈ Keyed.keys fields then Keyed.keys fields else Keyed.keys fields ++ [name] := by
  induction fields generalizing i qs with
  | nil => exact ⟨[(name, v)], (Except.ok.inj h).symm, rfl⟩
  | cons e fields ih =>
    rcases of_upsert_cons_eq_ok h with ⟨u, he, rfl⟩ | ⟨n, u, rs, hn, he, hrs, rfl⟩
    · obtain rfl : e = (name, u) := by simpa [field, Prod.ext_iff] using he
      exact ⟨(name, v) :: fields, rfl, (if_pos List.mem_cons_self).symm⟩
    · obtain rfl : e = (n, u) := by simpa [field, Prod.ext_iff] using he
      obtain ⟨fields', rfl, hkeys⟩ := ih hrs
      refine ⟨(n, u) :: fields', rfl, ?_⟩
      rw [Keyed.keys_cons, Keyed.keys_cons, hkeys]
      by_cases hname : name ∈ Keyed.keys fields
      · rw [if_pos hname, if_pos (List.mem_cons_of_mem n hname)]
      · rw [if_neg hname, if_neg (List.not_mem_cons_of_ne_of_not_mem hn.symm hname),
          List.cons_append]

end Pairs

namespace Action

variable {layout : Layout}

theorem nodup_of_applyAllTo {as : List Action} {fields : List (String × Json)} {c : Container}
    (hnodup : (Keyed.keys fields).Nodup)
    (h : applyAllTo layout as (.pairs (fields.map field)) = .ok c) :
    ∃ fields', c = .pairs (fields'.map field) ∧ (Keyed.keys fields').Nodup := by
  induction as generalizing fields with
  | nil => exact ⟨fields, (Except.ok.inj h).symm, hnodup⟩
  | cons a as ih =>
    obtain ⟨d, hd, h⟩ := applyAllTo_cons_eq_ok_iff.mp h
    obtain ⟨-, v, -, -, hup⟩ := applyTo_eq_ok_iff.mp hd
    obtain ⟨qs, hqs, rfl⟩ := Container.upsert_pairs_eq_ok hup
    obtain ⟨fields', rfl, hkeys⟩ := Pairs.of_upsert_map_field hqs
    refine ih ?_ h
    rw [hkeys]
    split
    · exact hnodup
    · next hnew =>
      rw [← List.concat_eq_append]
      exact hnodup.concat hnew

theorem ordered_of_applyAllTo_members {as : List Action} {ms : Keyed Json} {c : Container}
    (hms : ms.Ordered) (h : applyAllTo layout as (.members ms) = .ok c) :
    ∃ ms', c = .members ms' ∧ ms'.Ordered := by
  induction as generalizing ms with
  | nil => exact ⟨ms, (Except.ok.inj h).symm, hms⟩
  | cons a as ih =>
    obtain ⟨d, hd, h⟩ := applyAllTo_cons_eq_ok_iff.mp h
    obtain ⟨-, v, -, -, hup⟩ := applyTo_eq_ok_iff.mp hd
    rw [← Except.ok.inj hup] at h
    exact ih (hms.insert _ v) h

end Action

/-! ## The two encodings of an entry -/

/-- An object without objects in it and the pairs container of its tagged fields read the same, in
whatever order the pairs stand. -/
theorem Container.readsSame_tag {m : Keyed Json} (hm : m.Ordered) (hbare : ∀ e ∈ m, e.2.Bare)
    {fields : List (String × Json)} (hperm : fields.Perm m) :
    ReadsSame (.members m) (.pairs ((fields.map fun e ↦ (e.1, e.2.tag)).map field)) := by
  intro name
  have hnodup : (Keyed.keys fields).Nodup := (hperm.map Prod.fst).nodup_iff.mpr hm.nodup
  rw [get?, get?, Pairs.get?_map_field, Keyed.get?_map, Keyed.get?_eq_of_perm hperm hnodup]
  cases h : Keyed.get? m name with
  | none => exact .ok .none
  | some v => exact .ok (.some (Json.readsSame_tag v (hbare _ (Keyed.mem_of_get? h))))

/-- **One engine for both encodings.** Take an object whose values hold no objects, and its tagged
encoding with the pairs in any order. A rule fails on both for the same reason, or amends both. Then
the second result is a pairs container with distinct names, these are the keys of the first result,
and every field reads the same in both. The field names of the layout may coincide. -/
theorem Rule.amend_tagged (names : FieldNames) (rule : Rule) (key : String) {m : Keyed Json}
    (hm : m.Ordered) (hbare : ∀ e ∈ m, e.2.Bare) {fields : List (String × Json)}
    (hperm : fields.Perm m) :
    let tagged := Json.ofFields (fields.map fun e ↦ (e.1, e.2.tag))
    (∃ cause, rule.amend ⟨.plain, names⟩ key (.obj m) = .error (.unexpectedShape key cause) ∧
      rule.amend ⟨.tagged, names⟩ key tagged = .error (.unexpectedShape key cause)) ∨
    ∃ (m' : Keyed Json) (fields' : List (String × Json)),
      rule.amend ⟨.plain, names⟩ key (.obj m) = .ok (.obj m') ∧
      rule.amend ⟨.tagged, names⟩ key tagged = .ok (.ofFields fields') ∧
      m'.Ordered ∧ (fields'.map Prod.fst).Nodup ∧
      (∀ name, name ∈ fields'.map Prod.fst ↔ name ∈ m'.map Prod.fst) ∧
      ∀ name v w, (name, v) ∈ m' → (name, w) ∈ fields' → v.ReadsSame w := by
  intro tagged
  have hnodup : (Keyed.keys (fields.map fun e ↦ (e.1, e.2.tag))).Nodup := by
    have hkeys : Keyed.keys (fields.map fun e ↦ (e.1, e.2.tag)) = fields.map Prod.fst := by
      rw [Keyed.keys, List.map_map]
      rfl
    rw [hkeys]
    exact (hperm.map Prod.fst).nodup_iff.mpr hm.nodup
  have hplain : Layout.container ⟨.plain, names⟩ (.obj m) = .ok (.members m) := rfl
  have htagged : Layout.container ⟨.tagged, names⟩ tagged
      = .ok (.pairs ((fields.map fun e ↦ (e.1, e.2.tag)).map field)) := rfl
  have hfields : (⟨.plain, names⟩ : Layout).fields = (⟨.tagged, names⟩ : Layout).fields := rfl
  have hsame := Action.applyAllTo_rel hfields rule.actions
    (Container.readsSame_tag hm hbare hperm)
  rw [amend, amend, Action.applyAll_eq hplain, Action.applyAll_eq htagged]
  generalize hx : Action.applyAllTo ⟨.plain, names⟩ rule.actions _ = x,
    hy : Action.applyAllTo ⟨.tagged, names⟩ rule.actions _ = y at hsame ⊢
  cases hsame with
  | error cause => exact .inl ⟨cause, rfl, rfl⟩
  | ok h =>
    obtain ⟨m', rfl, hm'⟩ := Action.ordered_of_applyAllTo_members hm hx
    obtain ⟨fields', rfl, hnodup'⟩ := Action.nodup_of_applyAllTo hnodup hy
    have hget : ∀ name,
        Option.Rel Json.ReadsSame (Keyed.get? m' name) (Keyed.get? fields' name) := by
      intro name
      have hname := h name
      rw [Container.get?, Container.get?, Pairs.get?_map_field] at hname
      cases hname with
      | ok hrel => exact hrel
    refine .inr ⟨m', fields', rfl, rfl, hm', hnodup', fun name ↦ ?_, fun name v w hv hw ↦ ?_⟩
    · change name ∈ Keyed.keys fields' ↔ name ∈ Keyed.keys m'
      rw [Keyed.mem_keys_iff, Keyed.mem_keys_iff]
      have hrel := hget name
      generalize Keyed.get? m' name = x, Keyed.get? fields' name = y at hrel
      cases hrel <;> simp
    · have hrel := hget name
      rw [Keyed.get?_of_mem hm' hv, Keyed.get?_of_mem_of_nodup hnodup' hw] at hrel
      cases hrel with
      | some hvw => exact hvw

/-- Paths and device path share a field here, so a text is written over a list, bare in both
encodings; the identifier is new, and wrapped in the tagged encoding only. -/
theorem Rule.amend_tagged_coinciding :
    let names : FieldNames := { paths := "P", devpath := "P", dmUuid := "U" }
    let rule : Rule := ⟨⟨"r", Expr.isMatch (.chars (.single 'r'))⟩, "r",
      [.paths [], .devpath "x", .dmUuid "u"]⟩
    let m : Keyed Json := [("N", .null), ("P", .arr [.str "p"])]
    let tagged := Json.ofFields [("P", .wrap "Array" (.arr [.wrap "String" (.str "p")])),
      ("N", .null)]
    rule.amend ⟨.tagged, names⟩ "r" tagged
      = .ok (.ofFields [("P", .str "x"), ("N", .null), ("U", .wrap "String" (.str "u"))]) ∧
    ∃ (m' : Keyed Json) (fields' : List (String × Json)),
      rule.amend ⟨.plain, names⟩ "r" (.obj m) = .ok (.obj m') ∧
      rule.amend ⟨.tagged, names⟩ "r" tagged = .ok (.ofFields fields') ∧
      ∀ name v w, (name, v) ∈ m' → (name, w) ∈ fields' → v.ReadsSame w := by
  intro names rule m tagged
  have hm : m.Ordered := by decide +kernel
  have hbare : ∀ e ∈ m, e.2.Bare := by
    intro e he
    rcases List.mem_cons.mp he with rfl | he
    · trivial
    · rw [List.mem_singleton.mp he]
      exact ⟨trivial, trivial⟩
  have hperm : [("P", Json.arr [.str "p"]), ("N", .null)].Perm m := List.Perm.swap _ _ _
  have hrun : rule.amend ⟨.tagged, names⟩ "r" tagged = .ok (.ofFields
      [("P", .str "x"), ("N", .null), ("U", .wrap "String" (.str "u"))]) := rfl
  refine ⟨hrun, ?_⟩
  rcases Rule.amend_tagged names rule "r" hm hbare hperm with
    ⟨cause, -, herror⟩ | ⟨m', fields', hplain, htagged, -, -, -, hreads⟩
  · cases hrun.symm.trans herror
  · exact ⟨m', fields', hplain, htagged, hreads⟩

end DeviceSnapshot
