import DeviceSnapshot.Json.Decode
import Mathlib.Tactic.Common

/-!
# Values that can be read back

Two things may keep the text of a value from being read as that value: members that are not in key
order, which reading would reorder or merge, and nesting, which reading bounds. A value fits inside
a number of open containers when neither is in the way.

Fitting is carried through containers by `fits_arr_iff` and `fits_obj_iff`, so that no argument
about parts of a value has to compute a depth. For text that is written there is a third condition.
How floating-point numbers read back is a question of rounding, which is not treated here; a value
is printable when it fits and holds none of them.
-/

namespace DeviceSnapshot

namespace Json

/-! ## Depth -/

theorem depthItems_add_le_iff {items : List Json} {m k : Nat} :
    depthItems items + m ≤ k ↔ m ≤ k ∧ ∀ v ∈ items, v.depth + m ≤ k := by
  induction items with
  | nil => simp [depthItems]
  | cons v vs ih =>
    rw [depthItems, ← Nat.add_max_add_right, Nat.max_le, ih, List.forall_mem_cons, and_left_comm]

theorem depthMembers_add_le_iff {members : List (String × Json)} {m k : Nat} :
    depthMembers members + m ≤ k ↔ m ≤ k ∧ ∀ e ∈ members, e.2.depth + m ≤ k := by
  induction members with
  | nil => simp [depthMembers]
  | cons e ms ih =>
    rw [depthMembers, ← Nat.add_max_add_right, Nat.max_le, ih, List.forall_mem_cons,
      and_left_comm]

/-! ## Fitting values -/

/-- A value that can be read inside the given number of open containers. -/
structure Fits (n : Nat) (v : Json) : Prop where
  ordered : v.Ordered
  depth_le : v.depth + n ≤ maxDepth

theorem fits_of_depth_eq_zero {n : Nat} {v : Json} (hv : v.Ordered) (hdepth : v.depth = 0)
    (hn : n ≤ maxDepth) : Fits n v :=
  ⟨hv, by rwa [hdepth, Nat.zero_add]⟩

theorem fits_arr_iff {n : Nat} {items : List Json} :
    Fits n (.arr items) ↔ n < maxDepth ∧ ∀ v ∈ items, Fits (n + 1) v := by
  have hdepth : (Json.arr items).depth + n ≤ maxDepth ↔
      n < maxDepth ∧ ∀ v ∈ items, v.depth + (n + 1) ≤ maxDepth := by
    rw [depth, Nat.add_assoc, Nat.add_comm 1 n, depthItems_add_le_iff, Nat.succ_le_iff]
  constructor
  · intro h
    have hord := h.ordered
    rw [Ordered, orderedItems_iff] at hord
    obtain ⟨hn, hitems⟩ := hdepth.mp h.depth_le
    exact ⟨hn, fun v hv ↦ ⟨hord v hv, hitems v hv⟩⟩
  · rintro ⟨hn, hitems⟩
    refine ⟨?_, hdepth.mpr ⟨hn, fun v hv ↦ (hitems v hv).depth_le⟩⟩
    rw [Ordered, orderedItems_iff]
    exact fun v hv ↦ (hitems v hv).ordered

theorem fits_obj_iff {n : Nat} {members : Keyed Json} :
    Fits n (.obj members) ↔
      n < maxDepth ∧ members.Ordered ∧ ∀ e ∈ members, Fits (n + 1) e.2 := by
  have hdepth : (Json.obj members).depth + n ≤ maxDepth ↔
      n < maxDepth ∧ ∀ e ∈ members, e.2.depth + (n + 1) ≤ maxDepth := by
    rw [depth, Nat.add_assoc, Nat.add_comm 1 n, depthMembers_add_le_iff, Nat.succ_le_iff]
  constructor
  · intro h
    have hord := h.ordered
    rw [Ordered, orderedMembers_iff] at hord
    obtain ⟨hn, hmembers⟩ := hdepth.mp h.depth_le
    exact ⟨hn, hord.1, fun e he ↦ ⟨hord.2 e he, hmembers e he⟩⟩
  · rintro ⟨hn, hkeys, hmembers⟩
    refine ⟨?_, hdepth.mpr ⟨hn, fun e he ↦ (hmembers e he).depth_le⟩⟩
    rw [Ordered, orderedMembers_iff]
    exact ⟨hkeys, fun e he ↦ (hmembers e he).ordered⟩

/-! ## Printable values -/

mutual

/-- No number in a value is a floating-point number. -/
def FloatFree : Json → Prop
  | .float _ => False
  | .arr items => FloatFreeItems items
  | .obj members => FloatFreeMembers members
  | _ => True

def FloatFreeItems : List Json → Prop
  | [] => True
  | v :: vs => FloatFree v ∧ FloatFreeItems vs

def FloatFreeMembers : List (String × Json) → Prop
  | [] => True
  | (_, v) :: ms => FloatFree v ∧ FloatFreeMembers ms

end

theorem floatFree_arr_iff {items : List Json} :
    (Json.arr items).FloatFree ↔ ∀ v ∈ items, v.FloatFree := by
  rw [FloatFree]
  induction items with
  | nil => simp [FloatFreeItems]
  | cons v vs ih => rw [FloatFreeItems, ih, List.forall_mem_cons]

theorem floatFree_obj_iff {members : List (String × Json)} :
    (Json.obj members).FloatFree ↔ ∀ e ∈ members, e.2.FloatFree := by
  rw [FloatFree]
  induction members with
  | nil => simp [FloatFreeMembers]
  | cons e ms ih => rw [FloatFreeMembers, ih, List.forall_mem_cons]

/-- A value whose text can be read back inside the given number of open containers. -/
structure Printable (n : Nat) (v : Json) : Prop extends Fits n v where
  floatFree : v.FloatFree

theorem printable_str {n : Nat} (hn : n ≤ maxDepth) (s : String) : Printable n (.str s) :=
  ⟨fits_of_depth_eq_zero trivial rfl hn, trivial⟩

theorem printable_arr_iff {n : Nat} {items : List Json} :
    Printable n (.arr items) ↔ n < maxDepth ∧ ∀ v ∈ items, Printable (n + 1) v := by
  constructor
  · rintro ⟨hfits, hfloat⟩
    obtain ⟨hn, hitems⟩ := fits_arr_iff.mp hfits
    exact ⟨hn, fun v hv ↦ ⟨hitems v hv, floatFree_arr_iff.mp hfloat v hv⟩⟩
  · rintro ⟨hn, hitems⟩
    exact ⟨fits_arr_iff.mpr ⟨hn, fun v hv ↦ (hitems v hv).toFits⟩,
      floatFree_arr_iff.mpr fun v hv ↦ (hitems v hv).floatFree⟩

theorem printable_obj_iff {n : Nat} {members : Keyed Json} :
    Printable n (.obj members) ↔
      n < maxDepth ∧ members.Ordered ∧ ∀ e ∈ members, Printable (n + 1) e.2 := by
  constructor
  · rintro ⟨hfits, hfloat⟩
    obtain ⟨hn, hkeys, hmembers⟩ := fits_obj_iff.mp hfits
    exact ⟨hn, hkeys, fun e he ↦ ⟨hmembers e he, floatFree_obj_iff.mp hfloat e he⟩⟩
  · rintro ⟨hn, hkeys, hmembers⟩
    exact ⟨fits_obj_iff.mpr ⟨hn, hkeys, fun e he ↦ (hmembers e he).toFits⟩,
      floatFree_obj_iff.mpr fun e he ↦ (hmembers e he).floatFree⟩

end Json

end DeviceSnapshot
