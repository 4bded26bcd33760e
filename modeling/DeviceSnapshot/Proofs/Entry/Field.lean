import DeviceSnapshot.Proofs.Entry.Settled

/-!
# What becomes of one field

The actions of a rule take turns on an entry, and an action reads and writes its own field only. So
what becomes of a field is told by the actions on it alone, one after the other, beginning with the
value that the entry has there (`Action.newValues_of_applyAllTo`). With distinct field names these
actions are all of one kind.

* Actions that write a text overwrite each other. The last one stays, and its text has the form of
  the value that the first one found, because each of them keeps the form.
* Actions on paths work one upon the other. Each element goes through the substitutions of all of
  them, and neither the elements nor the list change their form; a list that was missing is added by
  the first action and stays empty.
-/

namespace DeviceSnapshot

/-! ## Changes inside a value -/

namespace Json

variable {v : Json} {text : String} {items : List Json}

/-- The value with its text changed, whether that is bare or wrapped. -/
def mapText (f : String → String) : Json → Json
  | .str s => .str (f s)
  | .obj [("String", .str s)] => .obj [("String", .str (f s))]
  | v => v

/-- The value with the elements of its list changed, whether that is bare or wrapped. -/
def mapList (f : Json → Json) : Json → Json
  | .arr items => .arr (items.map f)
  | .obj [("Array", .arr items)] => .obj [("Array", .arr (items.map f))]
  | v => v

/-- The value is a list of texts. -/
def IsPaths (v : Json) : Prop :=
  ∃ items, v.list? = some items ∧ ∀ item ∈ items, ∃ path, item.text? = some path

theorem eq_of_text?_eq_some (h : v.text? = some text) :
    v = .str text ∨ v = .wrap "String" (.str text) := by
  have hstr : ∀ {w : Json}, w.str? = some text → w = .str text := by
    intro w hw
    cases w with
    | str s => rw [Option.some.inj hw]
    | _ => cases hw
  rw [text?, Option.or_eq_some_iff] at h
  rcases h with h | ⟨-, h⟩
  · exact .inl (hstr h)
  · obtain ⟨w, hw, htext⟩ := Option.bind_eq_some_iff.mp h
    rw [tagged?_eq_some_iff.mp hw, hstr htext]
    exact .inr rfl

theorem mapText_mapText (f g : String → String) (h : v.text? = some text) :
    (v.mapText f).mapText g = v.mapText (g ∘ f) := by
  rcases eq_of_text?_eq_some h with rfl | rfl <;> rfl

theorem mapText_of_fixed {f : String → String} (h : ∀ s, f s = s) (v : Json) : v.mapText f = v := by
  unfold mapText
  split
  · rw [h]
  · rw [h]
  · rfl

theorem mapList_of_fixed {f : Json → Json} (h : ∀ w, f w = w) (v : Json) : v.mapList f = v := by
  have hmap : ∀ items : List Json, items.map f = items := by
    intro items
    rw [funext h, List.map_id']
  unfold mapList
  split
  · rw [hmap]
  · rw [hmap]
  · rfl

theorem mapList_mapList {f g k : Json → Json} (h : v.list? = some items)
    (hfg : ∀ item ∈ items, g (f item) = k item) : (v.mapList f).mapList g = v.mapList k := by
  have hmap : (items.map f).map g = items.map k := by
    rw [List.map_map]
    exact List.map_congr_left hfg
  rcases eq_of_list?_eq_some h with rfl | rfl
  · exact congrArg Json.arr hmap
  · exact congrArg (fun items ↦ Json.wrap "Array" (.arr items)) hmap

end Json

namespace Layout

variable {v : Json} {text : String} {items : List Json}

theorem stringLike_eq_mapText (layout : Layout) (f : String → String) (h : v.text? = some text) :
    layout.stringLike (some v) (f text) = v.mapText f := by
  rcases Json.eq_of_text?_eq_some h with rfl | rfl <;> rfl

theorem listLike_eq_mapList (layout : Layout) (f : Json → Json) (h : v.list? = some items) :
    layout.listLike (some v) (items.map f) = v.mapList f := by
  rcases Json.eq_of_list?_eq_some h with rfl | rfl <;> rfl

end Layout

/-- A path after the substitutions of several actions, one after the other. -/
def Substitution.applyEach (subss : List (List Substitution)) (path : String) : String :=
  subss.foldl (fun path subs ↦ applyFirst subs path) path

namespace Action

variable {layout : Layout} {c c' : Container} {as bs : List Action} {field s : String}
  {x : Option Json} {v w : Json} {subs : List Substitution}

/-! ## The actions on one field -/

def onField (layout : Layout) (field : String) (as : List Action) : List Action :=
  as.filter (target layout.fields · = field)

/-- A value after actions that all change it, one after the other. -/
def newValues (layout : Layout) (as : List Action) (x : Option Json) :
    Except ShapeFault (Option Json) :=
  as.foldlM (fun x a ↦ (a.newValue layout x).map some) x

@[simp] theorem newValues_nil (layout : Layout) (x : Option Json) :
    newValues layout [] x = .ok x := rfl

theorem newValues_cons_of_eq_ok {a : Action} (h : a.newValue layout x = .ok v) (as : List Action) :
    newValues layout (a :: as) x = newValues layout as (some v) := by
  rw [newValues, List.foldlM_cons, h]
  rfl

theorem of_newValues_cons_eq_ok {a : Action} {y : Option Json}
    (h : newValues layout (a :: as) x = .ok y) :
    ∃ v, a.newValue layout x = .ok v ∧ newValues layout as (some v) = .ok y := by
  rw [newValues, List.foldlM_cons, bind_eq_ok_iff] at h
  obtain ⟨_, hstep, h⟩ := h
  obtain ⟨v, hv, rfl⟩ := map_eq_ok_iff.mp hstep
  exact ⟨v, hv, h⟩

/-- **What becomes of a field is told by the actions on it.** -/
theorem newValues_of_applyAllTo (h : applyAllTo layout as c = .ok c') (hx : c.get? field = .ok x) :
    ∃ y, newValues layout (onField layout field as) x = .ok y ∧ c'.get? field = .ok y := by
  induction as generalizing c x with
  | nil => exact ⟨x, rfl, Except.ok.inj h ▸ hx⟩
  | cons a as ih =>
    obtain ⟨d, hd, h⟩ := applyAllTo_cons_eq_ok_iff.mp h
    by_cases hfield : a.target layout.fields = field
    · obtain ⟨x', v, hx', hv, hup⟩ := applyTo_eq_ok_iff.mp hd
      subst hfield
      rw [hx] at hx'
      rw [← Except.ok.inj hx'] at hv
      rw [onField, List.filter_cons_of_pos (by simp), newValues_cons_of_eq_ok hv]
      exact ih h (Container.get?_upsert_self hup)
    · rw [onField, List.filter_cons_of_neg (by simpa using hfield)]
      exact ih h ((get?_applyTo_of_ne hd (Ne.symm hfield)).trans hx)

theorem exists_get?_of_applyAllTo (h : applyAllTo layout as c = .ok c')
    (hfield : field ∈ targets layout as) : ∃ x, c.get? field = .ok x := by
  induction as generalizing c with
  | nil => exact absurd hfield (Finset.notMem_empty field)
  | cons a as ih =>
    obtain ⟨d, hd, h⟩ := applyAllTo_cons_eq_ok_iff.mp h
    by_cases heq : field = a.target layout.fields
    · obtain ⟨x, v, hx, -, -⟩ := applyTo_eq_ok_iff.mp hd
      exact ⟨x, heq ▸ hx⟩
    · obtain ⟨b, hb, hbt⟩ := mem_targets_iff.mp hfield
      rcases List.mem_cons.mp hb with rfl | hb
      · exact absurd hbt.symm heq
      · obtain ⟨x, hx⟩ := ih h (mem_targets_iff.mpr ⟨b, hb, hbt⟩)
        exact ⟨x, (get?_applyTo_of_ne hd heq).symm.trans hx⟩

/-! ## Texts -/

/-- Of texts that overwrite each other the last one stays, in the form of the value that the first
one found. -/
theorem newValues_texts {mk : String → Action}
    (hmk : ∀ s x, (mk s).newValue layout x = .ok (layout.stringLike x s))
    (has : ∀ a ∈ as, ∃ s, a = mk s) (s : String) (x : Option Json) :
    newValues layout (as ++ [mk s]) x = .ok (some (layout.stringLike x s)) := by
  induction as generalizing x with
  | nil => rw [List.nil_append, newValues_cons_of_eq_ok (hmk s x), newValues_nil]
  | cons a as ih =>
    obtain ⟨s', rfl⟩ := has a List.mem_cons_self
    rw [List.cons_append, newValues_cons_of_eq_ok (hmk s' x),
      ih fun b hb ↦ has b (List.mem_cons_of_mem _ hb),
      Layout.stringLike_eq_of_wraps (Layout.wraps_stringLike layout x s')]

/-- **The last text stays.** The hypotheses say that the actions on the field are those that write
a text there. -/
theorem get?_applyAllTo_text {mk : String → Action} {before after : List Action}
    (hmk : ∀ s x, (mk s).newValue layout x = .ok (layout.stringLike x s))
    (hfield : ∀ a : Action, a.target layout.fields = field ↔ ∃ s, a = mk s)
    (hafter : ∀ s', mk s' ∉ after)
    (h : applyAllTo layout (before ++ mk s :: after) c = .ok c') :
    ∃ x, c.get? field = .ok x ∧ c'.get? field = .ok (some (layout.stringLike x s)) := by
  have htarget : (mk s).target layout.fields = field := (hfield _).mpr ⟨s, rfl⟩
  have hon : onField layout field (before ++ mk s :: after)
      = onField layout field before ++ [mk s] := by
    have hnil : onField layout field after = [] := by
      rw [onField, List.filter_eq_nil_iff]
      intro a ha heq
      obtain ⟨s', rfl⟩ := (hfield a).mp (of_decide_eq_true heq)
      exact hafter s' ha
    rw [onField, List.filter_append, List.filter_cons_of_pos (by simpa using htarget), ← onField,
      ← onField, hnil]
  have hbefore : ∀ a ∈ onField layout field before, ∃ s, a = mk s := by
    intro a ha
    exact (hfield a).mp (of_decide_eq_true (List.mem_filter.mp ha).2)
  have hmem : field ∈ targets layout (before ++ mk s :: after) :=
    mem_targets_iff.mpr ⟨mk s, List.mem_append_right _ List.mem_cons_self, htarget⟩
  obtain ⟨x, hx⟩ := exists_get?_of_applyAllTo h hmem
  obtain ⟨y, hnew, hy⟩ := newValues_of_applyAllTo h hx
  rw [hon, newValues_texts hmk hbefore] at hnew
  rw [← Except.ok.inj hnew] at hy
  exact ⟨x, hx, hy⟩

/-! ## Paths -/

theorem of_substituteItems_eq_ok {i : Nat} {items items' : List Json}
    (h : substituteItems layout subs i items = .ok items') :
    (∀ item ∈ items, ∃ path, item.text? = some path) ∧
      items' = items.map (Json.mapText (Substitution.applyFirst subs)) := by
  induction items generalizing i items' with
  | nil => exact ⟨fun item hitem ↦ absurd hitem List.not_mem_nil, (Except.ok.inj h).symm⟩
  | cons item items ih =>
    obtain ⟨path, rest, hpath, hrest, rfl⟩ := substituteItems_cons_eq_ok h
    obtain ⟨htexts, rfl⟩ := ih hrest
    constructor
    · intro item' hitem'
      rcases List.mem_cons.mp hitem' with rfl | hitem'
      · exact ⟨path, hpath⟩
      · exact htexts item' hitem'
    · rw [List.map_cons, Layout.stringLike_eq_mapText layout _ hpath]

theorem of_newValue_paths_eq_ok (h : newValue layout (some v) (.paths subs) = .ok w) :
    v.IsPaths ∧ w = v.mapList (Json.mapText (Substitution.applyFirst subs)) := by
  obtain ⟨items, items', hlist, hitems, rfl⟩ := newValue_paths_some_eq_ok h
  obtain ⟨htexts, rfl⟩ := of_substituteItems_eq_ok hitems
  exact ⟨⟨items, hlist, htexts⟩, Layout.listLike_eq_mapList layout _ hlist⟩

theorem newValues_paths_some {subss : List (List Substitution)}
    (h : newValues layout (subss.map .paths) (some v) = .ok x) :
    x = some (v.mapList (Json.mapText (Substitution.applyEach subss))) := by
  induction subss generalizing v with
  | nil =>
    have hfixed : ∀ path, Substitution.applyEach [] path = path := fun _ ↦ rfl
    rw [← Except.ok.inj h, Json.mapList_of_fixed (Json.mapText_of_fixed hfixed)]
  | cons subs subss ih =>
    obtain ⟨w, hw, h⟩ := of_newValues_cons_eq_ok h
    obtain ⟨⟨items, hlist, htexts⟩, rfl⟩ := of_newValue_paths_eq_ok hw
    rw [ih h]
    refine congrArg some (Json.mapList_mapList hlist ?_)
    intro item hitem
    obtain ⟨path, hpath⟩ := htexts item hitem
    exact Json.mapText_mapText _ _ hpath

theorem onField_paths (hf : layout.fields.Distinct) (as : List Action) :
    onField layout layout.fields.paths as = (as.filterMap subs?).map .paths := by
  induction as with
  | nil => rfl
  | cons a as ih =>
    rcases hsubs : a.subs? with _ | subs
    · have hne : a.target layout.fields ≠ layout.fields.paths := by
        intro heq
        cases subs?_eq_none_of_target_eq hf (b := .paths []) heq hsubs
      rw [onField, List.filter_cons_of_neg (by simpa using hne), List.filterMap_cons_none hsubs,
        ← ih, onField]
    · obtain rfl := eq_paths_of_subs?_eq_some hsubs
      rw [onField, List.filter_cons_of_pos (by simp [target]), List.filterMap_cons_some hsubs,
        List.map_cons, ← ih, onField]

/-- **Every path goes through all substitutions.** -/
theorem get?_applyAllTo_paths (hf : layout.fields.Distinct) (hsubs : .paths subs ∈ as)
    (h : applyAllTo layout as c = .ok c') :
    (c.get? layout.fields.paths = .ok none ∧
      c'.get? layout.fields.paths = .ok (some (layout.listLike none []))) ∨
    ∃ v, c.get? layout.fields.paths = .ok (some v) ∧ v.IsPaths ∧ c'.get? layout.fields.paths
      = .ok (some (v.mapList (Json.mapText (Substitution.applyEach (as.filterMap subs?))))) := by
  have hmem : layout.fields.paths ∈ targets layout as := mem_targets_iff.mpr ⟨_, hsubs, rfl⟩
  obtain ⟨x, hx⟩ := exists_get?_of_applyAllTo h hmem
  obtain ⟨y, hnew, hy⟩ := newValues_of_applyAllTo h hx
  obtain ⟨first, rest, hfirst⟩ : ∃ first rest, as.filterMap subs? = first :: rest :=
    List.exists_cons_of_ne_nil (List.ne_nil_of_mem (List.mem_filterMap.mpr ⟨_, hsubs, rfl⟩))
  rw [onField_paths hf, hfirst, List.map_cons] at hnew
  obtain ⟨w, hw, hrest⟩ := of_newValues_cons_eq_ok hnew
  rcases x with _ | v
  · -- The first action adds an empty list, in which the others find nothing to do.
    have hempty : ∀ f, (layout.listLike none []).mapList f = layout.listLike none [] := by
      intro f
      rw [← Layout.listLike_eq_mapList layout f (Layout.list?_listLike layout none [])]
      exact Layout.listLike_eq_of_wraps (Layout.wraps_listLike layout none []) []
    rw [← Except.ok.inj hw] at hrest
    rw [newValues_paths_some hrest, hempty] at hy
    exact .inl ⟨hx, hy⟩
  · have hall : newValues layout ((first :: rest).map .paths) (some v) = .ok y := hnew
    rw [newValues_paths_some hall] at hy
    rw [hfirst]
    exact .inr ⟨v, hx, (of_newValue_paths_eq_ok hw).1, hy⟩

end Action

end DeviceSnapshot
