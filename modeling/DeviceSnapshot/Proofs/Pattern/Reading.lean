import DeviceSnapshot.Pattern.Basic
import DeviceSnapshot.Proofs.Pattern.Search

/-!
# What is read is what is searched for

The search is right for expressions whose repetitions are possible, that is, whose bounds do not
contradict each other. Every expression that is read from a text is of this kind. Bounds are
compared when they are read, and all else that the reader does with its stack of open groups only
puts together what is there (`Expr.ofText?_proper`). So a pattern matches a text exactly if its
expression occurs in it (`Expr.isMatch_iff_occurs`), without a condition on the pattern.
-/

namespace DeviceSnapshot

def Piece.AllProper (ps : List Piece) : Prop := ∀ e depth, Piece.expr e depth ∈ ps → e.Proper

def Branch.AllProper (bs : List Branch) : Prop := ∀ b ∈ bs, b.expr.Proper

namespace PatternState

variable {st st' : PatternState} {e : Expr} {ps : List Piece} {bs : List Branch}
  {cs rest : List Char} {least : Nat} {most : Option Nat}

/-- All that has been read so far is proper. -/
structure Proper (st : PatternState) : Prop where
  branches : Branch.AllProper st.branches
  pieces : Piece.AllProper st.pieces
  outer : ∀ g ∈ st.outer, Branch.AllProper g.branches ∧ Piece.AllProper g.pieces

/-! ## Putting pieces together -/

theorem pieces_cons (he : e.Proper) {depth : Nat} (hps : Piece.AllProper ps) :
    Piece.AllProper (.expr e depth :: ps) := by
  intro f n hf
  rcases List.mem_cons.mp hf with hf | hf
  · exact (Piece.expr.inj hf).1 ▸ he
  · exact hps f n hf

theorem concat_proper (hps : Piece.AllProper ps) : (concat ps).Proper := by
  induction ps with
  | nil => trivial
  | cons p ps ih =>
    have htail : (concat ps).Proper := ih fun e depth he ↦ hps e depth (List.mem_cons_of_mem p he)
    rcases p with ⟨e, depth⟩ | _
    · have hhead : e.Proper := hps e depth List.mem_cons_self
      rcases ps with _ | ⟨q, ps⟩
      · exact hhead
      · exact ⟨hhead, htail⟩
    · exact htail

theorem branch_proper (hps : Piece.AllProper ps) : (branch ps).expr.Proper :=
  concat_proper fun e depth he ↦ hps e depth (List.mem_reverse.mp he)

theorem alternation_proper (hbs : Branch.AllProper bs) : (alternation bs).Proper := by
  induction bs with
  | nil => trivial
  | cons b bs ih =>
    have hhead : b.expr.Proper := hbs b List.mem_cons_self
    rcases bs with _ | ⟨b', bs⟩
    · exact hhead
    · exact ⟨hhead, ih fun b hb ↦ hbs b (List.mem_cons_of_mem _ hb)⟩

theorem branches_cons (hps : Piece.AllProper ps) (hbs : Branch.AllProper bs) :
    Branch.AllProper (branch ps :: bs) := by
  intro b hb
  rcases List.mem_cons.mp hb with rfl | hb
  · exact branch_proper hps
  · exact hbs b hb

theorem close_proper (hps : Piece.AllProper ps) (hbs : Branch.AllProper bs) :
    (close bs ps).expr.Proper :=
  alternation_proper fun b hb ↦ branches_cons hps hbs b (List.mem_reverse.mp hb)

/-! ## Steps of the reader -/

theorem proper_empty : Proper {} := ⟨by simp [Branch.AllProper], by simp [Piece.AllProper], by simp⟩

theorem Proper.push (h : st.Proper) (he : e.Proper) {depth : Nat} : (st.push e depth).Proper :=
  ⟨h.branches, pieces_cons he h.pieces, h.outer⟩

theorem Proper.setFlags (h : st.Proper) {flags : PatternFlags} :
    Proper { st with flags, pieces := .flags :: st.pieces } := by
  refine ⟨h.branches, fun e depth he ↦ ?_, h.outer⟩
  rcases List.mem_cons.mp he with he | he
  · nomatch he
  · exact h.pieces e depth he

theorem Proper.nextBranch (h : st.Proper) : st.nextBranch.Proper :=
  ⟨branches_cons h.pieces h.branches, by simp [PatternState.nextBranch, Piece.AllProper], h.outer⟩

theorem Proper.openGroup (h : st.Proper) {g : Group} (hbranches : g.branches = st.branches)
    (hpieces : g.pieces = st.pieces) {flags : PatternFlags} {n : Nat} {names : List String} :
    Proper ⟨flags, [], [], g :: st.outer, n, names⟩ := by
  refine ⟨by simp [Branch.AllProper], by simp [Piece.AllProper], fun g' hg' ↦ ?_⟩
  rcases List.mem_cons.mp hg' with rfl | hg'
  · exact ⟨hbranches ▸ h.branches, hpieces ▸ h.pieces⟩
  · exact h.outer g' hg'

theorem Proper.openCapture? (h : st.Proper) {name : Option String}
    (hopen : st.openCapture? name = some st') : st'.Proper := by
  rw [PatternState.openCapture?] at hopen
  split at hopen
  · nomatch hopen
  · exact Option.some.inj hopen ▸ h.openGroup rfl rfl

theorem Proper.closeGroup? (h : st.Proper) (hclose : st.closeGroup? = some st') : st'.Proper := by
  rw [PatternState.closeGroup?] at hclose
  split at hclose
  · nomatch hclose
  · next g outer houter =>
    obtain rfl := Option.some.inj hclose
    have hg := h.outer g (houter ▸ List.mem_cons_self)
    have hgroup : (Expr.group g.number (close st.branches st.pieces).expr).Proper :=
      close_proper h.pieces h.branches
    exact ⟨hg.1, pieces_cons hgroup hg.2,
      fun g' hg' ↦ h.outer g' (houter ▸ List.mem_cons_of_mem g hg')⟩

theorem Proper.repeat? (h : st.Proper) (hbounds : ∀ m, most = some m → least ≤ m)
    (hrepeat : st.repeat? least most cs = some (st', rest)) : st'.Proper := by
  unfold PatternState.repeat? at hrepeat
  split at hrepeat
  · next e depth ps hps =>
    have he : e.Proper := h.pieces e depth (hps ▸ List.mem_cons_self)
    have htail : Piece.AllProper ps := fun f n hf ↦ h.pieces f n (hps ▸ List.mem_cons_of_mem _ hf)
    split at hrepeat
    next lazy rest' _ =>
      have hnew : (Expr.repeat e least most lazy).Proper := ⟨he, hbounds⟩
      obtain ⟨rfl, -⟩ := Prod.mk.inj (Option.some.inj hrepeat)
      exact ⟨h.branches, pieces_cons hnew htail, h.outer⟩
  · nomatch hrepeat

theorem Proper.finish? (h : st.Proper) (hfinish : st.finish? = some e) : e.Proper := by
  rw [PatternState.finish?] at hfinish
  split at hfinish
  · exact Option.some.inj hfinish ▸ close_proper h.pieces h.branches
  · nomatch hfinish

end PatternState

theorem le_of_readBounds? {cs rest : List Char} {least m : Nat}
    (h : readBounds? cs = some ((least, some m), rest)) : least ≤ m := by
  rw [readBounds?] at h
  obtain ⟨⟨first, cs⟩, -, h⟩ := Option.bind_eq_some_iff.mp h
  simp only at h
  split at h
  · cases h
    exact Nat.le_refl _
  · nomatch h
  · obtain ⟨second, -, h⟩ := Option.bind_eq_some_iff.mp h
    split at h
    · split at h
      · next hle =>
        cases h
        exact hle
      · nomatch h
    · nomatch h
  · nomatch h

theorem readPattern?_proper {fuel : Nat} {st : PatternState} {cs : List Char} {e : Expr}
    (h : st.Proper) (hread : readPattern? fuel st cs = some e) : e.Proper := by
  induction fuel generalizing st cs with
  | zero =>
    rcases cs with _ | ⟨c, cs⟩
    · exact h.finish? hread
    · nomatch hread
  | succ fuel ih =>
    rcases cs with _ | ⟨c, cs⟩
    · exact h.finish? hread
    · -- A repetition is the only step that must be given bounds that do not contradict each other.
      have hrepeat : ∀ {least most cs}, (∀ m, most = some m → least ≤ m) →
          ((st.repeat? least most cs).bind fun x ↦ readPattern? fuel x.1 x.2) = some e →
          e.Proper := by
        intro least most cs hbounds hread
        obtain ⟨⟨st', rest⟩, hst', hread⟩ := Option.bind_eq_some_iff.mp hread
        exact ih (h.repeat? hbounds hst') hread
      unfold readPattern? at hread
      split at hread
      · split at hread
        · obtain ⟨st', hst', hread⟩ := Option.bind_eq_some_iff.mp hread
          exact ih (h.openCapture? hst') hread
        · exact ih (h.openGroup rfl rfl) hread
        · exact ih h.setFlags hread
        · nomatch hread
      · obtain ⟨st', hst', hread⟩ := Option.bind_eq_some_iff.mp hread
        exact ih (h.closeGroup? hst') hread
      · exact ih h.nextBranch hread
      · obtain ⟨⟨⟨s, depth⟩, rest⟩, -, hread⟩ := Option.bind_eq_some_iff.mp hread
        exact ih (h.push Expr.proper_chars) hread
      · exact hrepeat (by simp) hread
      · exact hrepeat (by simp) hread
      · exact hrepeat (by simp) hread
      · obtain ⟨⟨⟨least, most⟩, rest⟩, hbounds, hread⟩ := Option.bind_eq_some_iff.mp hread
        refine hrepeat (fun m hm ↦ ?_) hread
        subst hm
        exact le_of_readBounds? hbounds
      · exact ih (h.push Expr.proper_chars) hread
      · exact ih (h.push Expr.proper_assert) hread
      · exact ih (h.push Expr.proper_assert) hread
      · obtain ⟨⟨escape, rest⟩, -, hread⟩ := Option.bind_eq_some_iff.mp hread
        refine ih (h.push ?_) hread
        rcases escape <;> trivial
      · exact ih (h.push Expr.proper_chars) hread

/-- **Every expression that is read is proper.** -/
theorem Expr.ofText?_proper {text : String} {e : Expr} (h : Expr.ofText? text = some e) :
    e.Proper := readPattern?_proper PatternState.proper_empty h

/-- **An expression that is read matches a text if it occurs in it.** -/
theorem Expr.isMatch_iff_occurs {source text : String} {e : Expr}
    (h : Expr.ofText? source = some e) : e.isMatch text = true ↔ e.Occurs text.toList :=
  Expr.occurs_iff (Expr.ofText?_proper h)

end DeviceSnapshot
