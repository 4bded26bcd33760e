import DeviceSnapshot.Proofs.Json.Fits
import DeviceSnapshot.Proofs.Keyed

/-!
# What is read fits

Every value that is read from a text fits: its members are in key order at every level, and it nests
no deeper than the reader allows. The invariant of the reader says the same of everything it holds.
What an open container holds so far is a value in its own right, an array or an object, and it fits
inside the containers around it (`FramesFit`). A token moves a value from one place to another, so
every step keeps this, and so does the run.
-/

namespace DeviceSnapshot

/-- The value of a scalar token is no container. -/
def Token.Atomic : Token → Prop
  | .scalar v => v.Ordered ∧ v.depth = 0
  | _ => True

namespace Token

theorem atomic_of_next? {c : Char} {cs rest : List Char} {t : Token}
    (h : next? c cs = some (t, rest)) : t.Atomic := by
  unfold next? at h
  split at h
  case h_7 =>
    obtain ⟨⟨s, r⟩, -, h⟩ := Option.map_eq_some_iff.mp h
    obtain ⟨rfl, -⟩ := Prod.mk.inj h
    trivial
  case h_11 =>
    simp only [Option.bind_eq_bind, Option.bind_eq_some_iff, Prod.exists] at h
    obtain ⟨l, r, -, v, hv, h⟩ := h
    obtain ⟨rfl, -⟩ := Prod.mk.inj (Option.some.inj h)
    unfold NumberLiteral.value? at hv
    split at hv
    · rw [← Option.some.inj hv]
      exact ⟨trivial, rfl⟩
    · obtain ⟨x, -, rfl⟩ := Option.map_eq_some_iff.mp hv
      exact ⟨trivial, rfl⟩
  case h_8 | h_9 | h_10 =>
    obtain ⟨rfl, -⟩ := Prod.mk.inj (Option.some.inj h)
    exact ⟨trivial, rfl⟩
  all_goals
    obtain ⟨rfl, -⟩ := Prod.mk.inj (Option.some.inj h)
    trivial

theorem atomic_of_mem_tokens? {cs : List Char} {ts : List Token} (h : tokens? cs = some ts) :
    ∀ t ∈ ts, t.Atomic := by
  fun_induction tokens? cs generalizing ts with
  | case1 =>
    rw [← Option.some.inj h]
    simp
  | case2 c cs hblank ih => exact ih h
  | case3 c cs hblank hnone => cases h
  | case4 c cs hblank t rest hnext hle ih =>
    obtain ⟨us, hus, rfl⟩ := Option.map_eq_some_iff.mp h
    rw [List.forall_mem_cons]
    exact ⟨atomic_of_next? hnext, ih hus⟩

end Token

namespace Json

/-! ## The invariant -/

/-- What an open container holds so far. -/
def Frame.value : Frame → Json
  | .item before => .arr before
  | .member before _ => .obj before

/-- Every open container fits inside those around it. -/
def FramesFit : List Frame → Prop
  | [] => True
  | f :: outer => Fits outer.length f.value ∧ FramesFit outer

/-- Everything that a reader holds fits where it is. -/
def Reader.Fitting : Reader → Prop
  | .anyValue outer => FramesFit outer
  | .firstItem outer => FramesFit (.item [] :: outer)
  | .afterItem items outer => FramesFit (.item items :: outer)
  | .firstName outer => FramesFit (.member [] "" :: outer)
  | .nextName members outer => FramesFit (.member members "" :: outer)
  | .afterName members name outer => FramesFit (.member members name :: outer)
  | .afterMember members outer => FramesFit (.member members "" :: outer)
  | .complete v => Fits 0 v

namespace Reader

variable {outer : List Frame} {v : Json} {r r' : Reader} {t : Token}

theorem length_le_of_framesFit (h : FramesFit outer) : outer.length ≤ maxDepth := by
  cases outer with
  | nil => exact Nat.zero_le _
  | cons f outer =>
    cases f with
    | item before => exact (fits_arr_iff.mp h.1).1
    | member before name => exact (fits_obj_iff.mp h.1).1

theorem fitting_place (hv : Fits outer.length v) (h : FramesFit outer) :
    (place v outer).Fitting := by
  cases outer with
  | nil => exact hv
  | cons f outer =>
    cases f with
    | item before =>
      obtain ⟨hn, hitems⟩ := fits_arr_iff.mp h.1
      exact ⟨fits_arr_iff.mpr ⟨hn, List.forall_mem_cons.mpr ⟨hv, hitems⟩⟩, h.2⟩
    | member before name =>
      obtain ⟨hn, hkeys, hmembers⟩ := fits_obj_iff.mp h.1
      refine ⟨fits_obj_iff.mpr ⟨hn, hkeys.insert name v, fun e he ↦ ?_⟩, h.2⟩
      rcases Keyed.mem_of_mem_insert he with rfl | he
      · exact hv
      · exact hmembers e he

theorem fitting_start (ht : t.Atomic) (h : FramesFit outer) (hr : start outer t = some r) :
    r.Fitting := by
  have hlength := length_le_of_framesFit h
  unfold start at hr
  split at hr
  · next v =>
    rw [← Option.some.inj hr]
    exact fitting_place (fits_of_depth_eq_zero ht.1 ht.2 hlength) h
  · next s =>
    rw [← Option.some.inj hr]
    exact fitting_place (fits_of_depth_eq_zero trivial rfl hlength) h
  · split at hr
    · next hlt =>
      rw [← Option.some.inj hr]
      exact ⟨fits_arr_iff.mpr ⟨hlt, by simp⟩, h⟩
    · cases hr
  · split at hr
    · next hlt =>
      rw [← Option.some.inj hr]
      exact ⟨fits_obj_iff.mpr ⟨hlt, Keyed.ordered_nil, by simp⟩, h⟩
    · cases hr
  · cases hr

/-- **A step keeps the invariant.** -/
theorem fitting_step (ht : t.Atomic) (h : r.Fitting) (hr : step r t = some r') : r'.Fitting := by
  unfold step at hr
  -- The cases are those of `step`: a value starts, a container ends, or only the place changes.
  split at hr
  · exact fitting_start ht h hr
  · rw [← Option.some.inj hr]
    exact fitting_place h.1 h.2
  · exact fitting_start ht h hr
  · rw [← Option.some.inj hr]
    exact h
  · rw [← Option.some.inj hr]
    -- The elements were gathered in reverse, which makes no difference to their depth.
    refine fitting_place (fits_arr_iff.mpr ?_) h.2
    obtain ⟨hn, hitems⟩ := fits_arr_iff.mp h.1
    exact ⟨hn, fun v hv ↦ hitems v (List.mem_reverse.mp hv)⟩
  · rw [← Option.some.inj hr]
    exact fitting_place h.1 h.2
  · rw [← Option.some.inj hr]
    exact h
  · rw [← Option.some.inj hr]
    exact h
  · rw [← Option.some.inj hr]
    exact h
  · rw [← Option.some.inj hr]
    exact h
  · rw [← Option.some.inj hr]
    exact fitting_place h.1 h.2
  · cases hr

theorem fitting_run {ts : List Token} (hts : ∀ t ∈ ts, t.Atomic) (h : r.Fitting)
    (hr : run r ts = some r') : r'.Fitting := by
  induction ts generalizing r with
  | nil => exact Option.some.inj hr ▸ h
  | cons t ts ih =>
    obtain ⟨ht, hts⟩ := List.forall_mem_cons.mp hts
    rw [run] at hr
    cases hstep : step r t with
    | none => simp [hstep] at hr
    | some r₁ =>
      rw [hstep] at hr
      exact ih hts (fitting_step ht h hstep) hr

end Reader

/-- **Every value that is read fits.** -/
theorem fits_of_decode? {text : String} {v : Json} (h : decode? text = some v) : Fits 0 v := by
  obtain ⟨ts, hts, h⟩ := Option.bind_eq_some_iff.mp h
  obtain ⟨r, hr, h⟩ := Option.bind_eq_some_iff.mp h
  have hstart : (Reader.anyValue []).Fitting := trivial
  have hfit : r.Fitting := Reader.fitting_run (Token.atomic_of_mem_tokens? hts) hstart hr
  cases r with
  | complete w =>
    rw [← Option.some.inj h]
    exact hfit
  | _ => cases h

end Json

end DeviceSnapshot
