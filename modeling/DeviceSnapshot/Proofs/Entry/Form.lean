import DeviceSnapshot.Proofs.Entry.Apart

/-!
# The form of written values

An action writes its value in the form of the value that it replaces: wrapped where that was
wrapped, bare where it was bare. So what an action writes depends on the old value only through its
form and, for a list of paths, through the paths that the substitutions give. Two consequences are
drawn here.

* Two values of one form are replaced by one value: `stringLike_congr`, `newValue_paths_congr`.
* A value that an action has written is one that the same action leaves alone, as long as the
  substitutions leave their own replacements alone: `newValue_newValue`.
-/

namespace DeviceSnapshot

/-! ## Forms -/

/-- Both values are wrapped under a tag, or neither is. -/
def Json.SameWrap (tag : String) (v w : Json) : Prop :=
  (v.tagged? tag).isSome = (w.tagged? tag).isSome

/-- Two elements of lists of paths that substitutions take to the same path. -/
def Json.SamePath (subs : List Substitution) (item item' : Json) : Prop :=
  Json.SameWrap "String" item item' ∧ ∃ path path', item.text? = some path ∧
    item'.text? = some path' ∧
    Substitution.applyFirst subs path = Substitution.applyFirst subs path'

/-- Two lists of paths, in one form, that substitutions take to the same paths. -/
def Json.SamePaths (subs : List Substitution) (v w : Json) : Prop :=
  Json.SameWrap "Array" v w ∧ ∃ items items', v.list? = some items ∧ w.list? = some items' ∧
    List.Forall₂ (Json.SamePath subs) items items'

namespace Layout

variable {layout : Layout}

@[simp] theorem text?_stringLike (layout : Layout) (x : Option Json) (s : String) :
    (layout.stringLike x s).text? = some s := by
  rw [stringLike]
  split <;> rfl

@[simp] theorem list?_listLike (layout : Layout) (x : Option Json) (items : List Json) :
    (layout.listLike x items).list? = some items := by
  rw [listLike]
  split <;> rfl

@[simp] theorem wraps_stringLike (layout : Layout) (x : Option Json) (s : String) :
    layout.wraps "String" (some (layout.stringLike x s)) = layout.wraps "String" x := by
  rw [stringLike]
  split
  · next h => rw [h, wraps, Json.wrap, Json.tagged?, if_pos rfl, Option.isSome_some]
  · next h =>
    rw [Bool.not_eq_true] at h
    rw [h]
    rfl

@[simp] theorem wraps_listLike (layout : Layout) (x : Option Json) (items : List Json) :
    layout.wraps "Array" (some (layout.listLike x items)) = layout.wraps "Array" x := by
  rw [listLike]
  split
  · next h => rw [h, wraps, Json.wrap, Json.tagged?, if_pos rfl, Option.isSome_some]
  · next h =>
    rw [Bool.not_eq_true] at h
    rw [h]
    rfl

theorem stringLike_eq_of_wraps {x y : Option Json}
    (h : layout.wraps "String" x = layout.wraps "String" y) (s : String) :
    layout.stringLike x s = layout.stringLike y s := by
  rw [stringLike, stringLike, h]

theorem listLike_eq_of_wraps {x y : Option Json}
    (h : layout.wraps "Array" x = layout.wraps "Array" y) (items : List Json) :
    layout.listLike x items = layout.listLike y items := by
  rw [listLike, listLike, h]

theorem stringLike_congr {v w : Json} (h : Json.SameWrap "String" v w) (s : String) :
    layout.stringLike (some v) s = layout.stringLike (some w) s := by
  have hwraps : layout.wraps "String" (some v) = layout.wraps "String" (some w) := h
  exact stringLike_eq_of_wraps hwraps s

end Layout

namespace Substitution

theorem applyFirst_eq_or_mem (subs : List Substitution) (path : String) :
    applyFirst subs path = path ∨ ∃ sub ∈ subs, applyFirst subs path = sub.replacement := by
  rw [applyFirst]
  cases h : subs.find? (·.pattern.isMatch path) with
  | none => exact .inl rfl
  | some sub => exact .inr ⟨sub, List.mem_of_find?_eq_some h, rfl⟩

theorem applyFirst_applyFirst {subs : List Substitution}
    (h : ∀ sub ∈ subs, applyFirst subs sub.replacement = sub.replacement) (path : String) :
    applyFirst subs (applyFirst subs path) = applyFirst subs path := by
  rcases applyFirst_eq_or_mem subs path with heq | ⟨sub, hsub, heq⟩
  · rw [heq, heq]
  · rw [heq, h sub hsub]

end Substitution

namespace Action

variable {layout : Layout}

/-! ## Lists of paths -/

private theorem substituteItems_cons {subs : List Substitution} {i : Nat} {item : Json}
    {path : String} (h : item.text? = some path) (items : List Json) :
    substituteItems layout subs i (item :: items)
      = (substituteItems layout subs (i + 1) items).map
          (layout.stringLike (some item) (Substitution.applyFirst subs path) :: ·) := by
  rw [substituteItems, h]

theorem substituteItems_cons_eq_ok {subs : List Substitution} {i : Nat} {item : Json}
    {items items' : List Json} (h : substituteItems layout subs i (item :: items) = .ok items') :
    ∃ path rest, item.text? = some path ∧
      substituteItems layout subs (i + 1) items = .ok rest ∧
      items' = layout.stringLike (some item) (Substitution.applyFirst subs path) :: rest := by
  cases hpath : item.text? with
  | none => simp [substituteItems, hpath] at h
  | some path =>
    rw [substituteItems_cons hpath] at h
    obtain ⟨rest, hrest, hitems'⟩ := map_eq_ok_iff.mp h
    exact ⟨path, rest, rfl, hrest, hitems'.symm⟩

theorem substituteItems_congr {subs : List Substitution} {items items' : List Json}
    (h : List.Forall₂ (Json.SamePath subs) items items') (i : Nat) :
    substituteItems layout subs i items = substituteItems layout subs i items' := by
  induction h generalizing i with
  | nil => rfl
  | cons hitem _ ih =>
    obtain ⟨hwrap, path, path', hpath, hpath', heq⟩ := hitem
    rw [substituteItems_cons hpath, substituteItems_cons hpath', ih, heq,
      Layout.stringLike_congr hwrap]

theorem substituteItems_substituteItems {subs : List Substitution} {items items' : List Json}
    (hsubs : ∀ sub ∈ subs, Substitution.applyFirst subs sub.replacement = sub.replacement)
    {i : Nat} (h : substituteItems layout subs i items = .ok items') :
    substituteItems layout subs i items' = .ok items' := by
  induction items generalizing i items' with
  | nil =>
    rw [← Except.ok.inj h]
    rfl
  | cons item items ih =>
    obtain ⟨path, rest, -, hrest, rfl⟩ := substituteItems_cons_eq_ok h
    rw [substituteItems_cons (Layout.text?_stringLike layout _ _), ih hrest,
      Substitution.applyFirst_applyFirst hsubs, Except.map,
      Layout.stringLike_eq_of_wraps (Layout.wraps_stringLike layout _ _)]

theorem newValue_paths_congr {subs : List Substitution} {v w : Json}
    (h : Json.SamePaths subs v w) :
    newValue layout (some v) (.paths subs) = newValue layout (some w) (.paths subs) := by
  obtain ⟨hwrap, items, items', hv, hw, hitems⟩ := h
  rw [newValue, newValue, hv, hw]
  dsimp only
  rw [substituteItems_congr hitems]
  exact congrArg (Except.map · _) (funext (Layout.listLike_eq_of_wraps hwrap))

/-! ## Writing twice -/

/-- The substitutions of an action leave their own replacements alone. -/
def LeavesReplacements : Action → Prop
  | .paths subs => ∀ sub ∈ subs, Substitution.applyFirst subs sub.replacement = sub.replacement
  | .devpath _ | .dmUuid _ => True

instance (a : Action) : Decidable a.LeavesReplacements := by
  cases a <;> unfold LeavesReplacements <;> infer_instance

/-- **An action leaves alone what it has written.** -/
theorem newValue_newValue {a : Action} (ha : a.LeavesReplacements) {x : Option Json} {v : Json}
    (h : a.newValue layout x = .ok v) : a.newValue layout (some v) = .ok v := by
  have htext : ∀ s, layout.stringLike (some (layout.stringLike x s)) s = layout.stringLike x s :=
    fun s ↦ Layout.stringLike_eq_of_wraps (Layout.wraps_stringLike layout x s) s
  cases a with
  | devpath s =>
    rw [← Except.ok.inj h]
    exact congrArg Except.ok (htext s)
  | dmUuid s =>
    rw [← Except.ok.inj h]
    exact congrArg Except.ok (htext s)
  | paths subs =>
    cases x with
    | none =>
      -- An empty list was added, and it has nothing to substitute.
      rw [← Except.ok.inj h, newValue, Layout.list?_listLike]
      exact congrArg Except.ok
        (Layout.listLike_eq_of_wraps (Layout.wraps_listLike layout none []) [])
    | some w =>
      obtain ⟨items, items', -, hitems, rfl⟩ := newValue_paths_some_eq_ok h
      rw [newValue, Layout.list?_listLike]
      dsimp only
      rw [substituteItems_substituteItems ha hitems]
      exact congrArg Except.ok
        (Layout.listLike_eq_of_wraps (Layout.wraps_listLike layout (some w) items') items')

end Action

end DeviceSnapshot
