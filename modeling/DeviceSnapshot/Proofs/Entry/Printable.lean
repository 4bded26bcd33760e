import DeviceSnapshot.Proofs.Entry.Form
import DeviceSnapshot.Proofs.Json.Fits

/-!
# Amended entries can be printed

Actions keep entries printable. What they write is either no deeper than what it replaces, since the
form is kept and elements are replaced one by one, or it is new and shallow: at most a wrapped empty
list. New values stand at most three containers inside their entry, in a pair of a pairs container,
and nest two more at most. So an entry with room for five containers stays printable
(`printable_applyAll`).
-/

namespace DeviceSnapshot

namespace Json

variable {n : Nat} {v : Json}

theorem Printable.le (h : Printable n v) : n ≤ maxDepth :=
  Nat.le_trans (Nat.le_add_left n v.depth) h.depth_le

theorem printable_wrap_iff {tag : String} : Printable n (.wrap tag v) ↔ Printable (n + 1) v := by
  rw [wrap, printable_obj_iff]
  constructor
  · rintro ⟨-, -, h⟩
    exact h (tag, v) List.mem_cons_self
  · intro h
    refine ⟨h.le, List.pairwise_singleton _ _, fun e he ↦ ?_⟩
    rw [List.mem_singleton.mp he]
    exact h

theorem printable_pair_iff {name : String} :
    Printable n (.arr [.str name, v]) ↔ Printable (n + 1) v := by
  rw [printable_arr_iff]
  constructor
  · rintro ⟨-, h⟩
    exact h v (List.mem_cons_of_mem _ List.mem_cons_self)
  · intro h
    refine ⟨h.le, fun w hw ↦ ?_⟩
    rcases List.mem_cons.mp hw with rfl | hw
    · exact printable_str h.le name
    · exact List.mem_singleton.mp hw ▸ h

end Json

open Json

namespace Layout

variable {layout : Layout} {n : Nat} {v : Json}

theorem printable_stringLike_some (h : Printable n v) (s : String) :
    Printable n (layout.stringLike (some v) s) := by
  rw [stringLike, wraps]
  split
  · next hwrap =>
    obtain ⟨w, hw⟩ := Option.isSome_iff_exists.mp hwrap
    rw [tagged?_eq_some_iff.mp hw, printable_wrap_iff] at h
    exact printable_wrap_iff.mpr (printable_str h.le s)
  · exact printable_str h.le s

theorem printable_stringLike_none (hn : n + 1 ≤ maxDepth) (s : String) :
    Printable n (layout.stringLike none s) := by
  rw [stringLike]
  split
  · exact printable_wrap_iff.mpr (printable_str hn s)
  · exact printable_str (Nat.le_of_succ_le hn) s

/-- The elements of a list stand one or two containers inside it, and a list that replaces it puts
its elements in the same place. -/
theorem exists_room_of_list? (layout : Layout) {items : List Json} (h : Printable n v)
    (hlist : v.list? = some items) :
    ∃ m, (∀ item ∈ items, Printable m item) ∧
      ∀ items', (∀ item ∈ items', Printable m item) →
        Printable n (layout.listLike (some v) items') := by
  rcases eq_of_list?_eq_some hlist with rfl | rfl
  · obtain ⟨hn, hitems⟩ := printable_arr_iff.mp h
    exact ⟨n + 1, hitems, fun items' hitems' ↦ printable_arr_iff.mpr ⟨hn, hitems'⟩⟩
  · obtain ⟨hn, hitems⟩ := printable_arr_iff.mp (printable_wrap_iff.mp h)
    exact ⟨n + 2, hitems, fun items' hitems' ↦
      printable_wrap_iff.mpr (printable_arr_iff.mpr ⟨hn, hitems'⟩)⟩

theorem printable_listLike_none (hn : n + 2 ≤ maxDepth) :
    Printable n (layout.listLike none []) := by
  have harr : ∀ m, m < maxDepth → Printable m (.arr []) := fun m hm ↦
    printable_arr_iff.mpr ⟨hm, by simp⟩
  rw [listLike]
  split
  · exact printable_wrap_iff.mpr (harr (n + 1) hn)
  · exact harr n (Nat.lt_of_succ_lt hn)

end Layout

namespace Action

variable {layout : Layout} {n : Nat} {v : Json}

theorem printable_substituteItems {subs : List Substitution} {items items' : List Json}
    (hitems : ∀ item ∈ items, Printable n item) {i : Nat}
    (h : substituteItems layout subs i items = .ok items') :
    ∀ item ∈ items', Printable n item := by
  induction items generalizing i items' with
  | nil =>
    rw [← Except.ok.inj h]
    exact hitems
  | cons item items ih =>
    obtain ⟨hitem, hitems⟩ := List.forall_mem_cons.mp hitems
    obtain ⟨path, rest, -, hrest, rfl⟩ := substituteItems_cons_eq_ok h
    exact List.forall_mem_cons.mpr
      ⟨Layout.printable_stringLike_some hitem _, ih hitems hrest⟩

/-- **What an action writes can be printed in place of the existing value.** -/
theorem printable_newValue {a : Action} {x : Option Json} (hn : n + 2 ≤ maxDepth)
    (hx : ∀ w, x = some w → Printable n w) (h : a.newValue layout x = .ok v) : Printable n v := by
  have htext : ∀ s, Printable n (layout.stringLike x s) := by
    intro s
    cases x with
    | none => exact Layout.printable_stringLike_none (Nat.le_of_succ_le hn) s
    | some w => exact Layout.printable_stringLike_some (hx w rfl) s
  cases a with
  | devpath s => exact Except.ok.inj h ▸ htext s
  | dmUuid s => exact Except.ok.inj h ▸ htext s
  | paths subs =>
    cases x with
    | none => exact Except.ok.inj h ▸ Layout.printable_listLike_none hn
    | some w =>
      obtain ⟨items, items', hlist, hitems, rfl⟩ := newValue_paths_some_eq_ok h
      obtain ⟨m, hold, hnew⟩ := layout.exists_room_of_list? (hx w rfl) hlist
      exact hnew items' (printable_substituteItems hold hitems)

end Action

/-! ## Containers -/

namespace Container

variable {n : Nat} {v : Json} {c c' : Container} {field : String}

/-- How many containers a value of a field stands inside. -/
def level : Container → Nat
  | .pairs _ => 3
  | .members _ => 1

theorem level_le (c : Container) : c.level ≤ 3 := by
  cases c <;> simp [level]

theorem printable_get? (hc : Printable n c.toJson) (h : c.get? field = .ok (some v)) :
    Printable (n + c.level) v := by
  cases c with
  | pairs ps =>
    obtain ⟨-, hps⟩ := printable_arr_iff.mp (printable_wrap_iff.mp hc)
    exact printable_pair_iff.mp (hps _ (Pairs.mem_of_get?_some h))
  | members ms =>
    obtain ⟨-, -, hms⟩ := printable_obj_iff.mp hc
    exact hms (field, v) (Keyed.mem_of_get? (Except.ok.inj h))

theorem printable_upsert (hc : Printable n c.toJson) (hv : Printable (n + c.level) v)
    (h : c.upsert field v = .ok c') : Printable n c'.toJson := by
  cases c with
  | pairs ps =>
    obtain ⟨qs, hqs, rfl⟩ := upsert_pairs_eq_ok h
    obtain ⟨hn, hps⟩ := printable_arr_iff.mp (printable_wrap_iff.mp hc)
    refine printable_wrap_iff.mpr (printable_arr_iff.mpr ⟨hn, fun q hq ↦ ?_⟩)
    rcases Pairs.mem_of_mem_upsert hqs hq with rfl | hq
    · exact printable_pair_iff.mpr hv
    · exact hps q hq
  | members ms =>
    obtain ⟨hn, hkeys, hms⟩ := printable_obj_iff.mp hc
    rw [← Except.ok.inj h]
    refine printable_obj_iff.mpr ⟨hn, hkeys.insert field v, fun e he ↦ ?_⟩
    rcases Keyed.mem_of_mem_insert he with rfl | he
    · exact hv
    · exact hms e he

end Container

namespace Action

variable {layout : Layout} {n : Nat} {c c' : Container}

theorem printable_applyTo {a : Action} (hn : n + 5 ≤ maxDepth) (hc : Printable n c.toJson)
    (h : a.applyTo layout c = .ok c') : Printable n c'.toJson := by
  obtain ⟨x, v, hx, hv, hup⟩ := applyTo_eq_ok_iff.mp h
  -- The value of a new pair stands three containers inside and nests two more.
  have hroom : n + c.level + 2 ≤ maxDepth := by
    have hlevel := c.level_le
    omega
  refine Container.printable_upsert hc (printable_newValue hroom ?_ hv) hup
  rintro w rfl
  exact Container.printable_get? hc hx

theorem printable_applyAllTo {as : List Action} (hn : n + 5 ≤ maxDepth)
    (hc : Printable n c.toJson) (h : applyAllTo layout as c = .ok c') :
    Printable n c'.toJson := by
  induction as generalizing c with
  | nil => exact Except.ok.inj h ▸ hc
  | cons a as ih =>
    obtain ⟨d, hd, h⟩ := applyAllTo_cons_eq_ok_iff.mp h
    exact ih (printable_applyTo hn hc hd) h

/-- **An amended entry can be printed where the entry could.** -/
theorem printable_applyAll {as : List Action} {entry entry' : Json} (hn : n + 5 ≤ maxDepth)
    (hentry : Printable n entry) (h : applyAll layout as entry = .ok entry') :
    Printable n entry' := by
  rcases of_applyAll_eq_ok h with ⟨rfl, rfl⟩ | ⟨c, c', hcon, hc, rfl⟩
  · exact hentry
  · rw [← Layout.toJson_of_container hcon] at hentry
    exact printable_applyAllTo hn hentry hc

end Action

end DeviceSnapshot
