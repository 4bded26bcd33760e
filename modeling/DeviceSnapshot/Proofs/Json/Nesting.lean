import DeviceSnapshot.Proofs.Json.RoundTrip
import Mathlib.Data.List.Basic

/-!
# Values that nest too deep

The text of a value whose members are in order is refused exactly when the value nests deeper than
the reader allows. That it is read otherwise is the round trip. Here the other half is shown: along
the tokens of such a value the reader comes to a bracket or a brace that it does not accept,
wherever in the value the container is. What was read before it fits, so up to there the run is
known from the round trip (`Reader.run_toTokens`); and nothing after it matters.
-/

namespace DeviceSnapshot

namespace Json

variable {n : Nat} {v : Json} {vs : List Json} {k : String} {ms : List (String × Json)}

/-! ## Where a value does not fit -/

/-- A value fits as long as all its parts do, so of an array with room for itself some element does
not fit. -/
theorem exists_not_fits_of_arr (hn : n < maxDepth) (h : ¬Fits n (.arr (v :: vs))) :
    ¬Fits (n + 1) v ∨ ∃ w ∈ vs, ¬Fits (n + 1) w := by
  by_contra hall
  push Not at hall
  exact h (fits_arr_iff.mpr ⟨hn, List.forall_mem_cons.mpr hall⟩)

theorem exists_not_fits_of_obj (hn : n < maxDepth) (hkeys : Keyed.Ordered ((k, v) :: ms))
    (h : ¬Fits n (.obj ((k, v) :: ms))) :
    ¬Fits (n + 1) v ∨ ∃ e ∈ ms, ¬Fits (n + 1) e.2 := by
  by_contra hall
  push Not at hall
  exact h (fits_obj_iff.mpr ⟨hn, hkeys, List.forall_mem_cons.mpr hall⟩)

namespace Reader

variable {outer : List Frame} {ts : List Token}

theorem run_beginArray_eq_none (h : ¬outer.length < maxDepth) :
    run (.anyValue outer) (.beginArray :: ts) = none := by
  rw [run, step, start, if_neg h]

theorem run_beginObject_eq_none (h : ¬outer.length < maxDepth) :
    run (.anyValue outer) (.beginObject :: ts) = none := by
  rw [run, step, start, if_neg h]

mutual

/-- **The tokens of a value that does not fit cannot be read.** -/
theorem run_toTokens_of_not_fits : ∀ (v : Json) (outer : List Frame) (ts : List Token),
    v.Ordered → outer.length ≤ maxDepth → ¬Fits outer.length v →
      run (.anyValue outer) (toTokens v ++ ts) = none
  | .null, outer, ts, hv, hlen, h | .bool _, outer, ts, hv, hlen, h
  | .int _, outer, ts, hv, hlen, h | .float _, outer, ts, hv, hlen, h
  | .str _, outer, ts, hv, hlen, h => absurd (fits_of_depth_eq_zero hv rfl hlen) h
  | .arr [], outer, ts, hv, hlen, h => by
    have hn : ¬outer.length < maxDepth := fun hn ↦ h (fits_arr_iff.mpr ⟨hn, by simp⟩)
    rw [toTokens, List.cons_append, run_beginArray_eq_none hn]
  | .arr (v :: vs), outer, ts, hv, hlen, h => by
    rw [Ordered, orderedItems_iff, List.forall_mem_cons] at hv
    rw [toTokens]
    simp only [List.cons_append, List.append_assoc, List.nil_append]
    by_cases hn : outer.length < maxDepth
    · rw [run_beginArray hn, run_firstItem]
      -- The first part that does not fit is where the reader stops.
      by_cases hfirst : Fits (outer.length + 1) v
      · have hrest := (exists_not_fits_of_arr hn h).resolve_left (not_not_intro hfirst)
        rw [run_toTokens v (.item [] :: outer) _ hfirst, place]
        exact run_itemTokens_of_not_fits vs [v] outer _ hv.2 hn hrest
      · exact run_toTokens_of_not_fits v (.item [] :: outer) _ hv.1 hn hfirst
    · rw [run_beginArray_eq_none hn]
  | .obj [], outer, ts, hv, hlen, h => by
    have hn : ¬outer.length < maxDepth := fun hn ↦
      h (fits_obj_iff.mpr ⟨hn, Keyed.ordered_nil, by simp⟩)
    rw [toTokens, List.cons_append, run_beginObject_eq_none hn]
  | .obj ((k, v) :: ms), outer, ts, hv, hlen, h => by
    obtain ⟨hkeys, hv⟩ := hv
    rw [orderedMembers_iff, List.forall_mem_cons] at hv
    rw [toTokens]
    simp only [List.cons_append, List.append_assoc, List.nil_append]
    by_cases hn : outer.length < maxDepth
    · rw [run_beginObject hn, run_firstMember]
      by_cases hfirst : Fits (outer.length + 1) v
      · have hrest := (exists_not_fits_of_obj hn hkeys h).resolve_left (not_not_intro hfirst)
        rw [run_toTokens v (.member [] k :: outer) _ hfirst, place]
        exact run_memberTokens_of_not_fits ms _ outer _ hv.2 hn hrest
      · exact run_toTokens_of_not_fits v (.member [] k :: outer) _ hv.1 hn hfirst
    · rw [run_beginObject_eq_none hn]

theorem run_itemTokens_of_not_fits : ∀ (vs items : List Json) (outer : List Frame)
    (ts : List Token), (∀ v ∈ vs, v.Ordered) → outer.length < maxDepth →
      (∃ v ∈ vs, ¬Fits (outer.length + 1) v) →
      run (.afterItem items outer) (itemTokens vs ++ ts) = none
  | [], items, outer, ts, _, _, h => by simp at h
  | v :: vs, items, outer, ts, hv, hn, h => by
    rw [List.forall_mem_cons] at hv
    have h := List.or_exists_of_exists_mem_cons h
    rw [itemTokens]
    simp only [List.cons_append, List.append_assoc]
    rw [run_nextItem]
    by_cases hfirst : Fits (outer.length + 1) v
    · rw [run_toTokens v (.item items :: outer) _ hfirst, place]
      exact run_itemTokens_of_not_fits vs (v :: items) outer ts hv.2 hn
        (h.resolve_left (not_not_intro hfirst))
    · exact run_toTokens_of_not_fits v (.item items :: outer) _ hv.1 hn hfirst

theorem run_memberTokens_of_not_fits : ∀ (ms : List (String × Json)) (members : Keyed Json)
    (outer : List Frame) (ts : List Token), (∀ e ∈ ms, e.2.Ordered) → outer.length < maxDepth →
      (∃ e ∈ ms, ¬Fits (outer.length + 1) e.2) →
      run (.afterMember members outer) (memberTokens ms ++ ts) = none
  | [], members, outer, ts, _, _, h => by simp at h
  | (k, v) :: ms, members, outer, ts, hv, hn, h => by
    rw [List.forall_mem_cons] at hv
    have h := List.or_exists_of_exists_mem_cons h
    rw [memberTokens]
    simp only [List.cons_append, List.append_assoc]
    rw [run_nextMember]
    by_cases hfirst : Fits (outer.length + 1) v
    · rw [run_toTokens v (.member members k :: outer) _ hfirst, place]
      exact run_memberTokens_of_not_fits ms _ outer ts hv.2 hn
        (h.resolve_left (not_not_intro hfirst))
    · exact run_toTokens_of_not_fits v (.member members k :: outer) _ hv.1 hn hfirst

end

end Reader

/-- **The text of a value that nests too deep is refused.** -/
theorem decode?_pretty_of_not_fits (hv : v.Ordered) (hfloat : v.FloatFree) (h : ¬Fits 0 v) :
    decode? v.pretty = none := by
  have hrun : Reader.run (.anyValue []) (toTokens v) = none := by
    have hstop := Reader.run_toTokens_of_not_fits v [] [] hv (Nat.zero_le _) h
    rwa [List.append_nil] at hstop
  rw [decode?, tokens?_pretty hfloat, Option.bind_some, ofTokens?, hrun]
  rfl

end Json

end DeviceSnapshot
