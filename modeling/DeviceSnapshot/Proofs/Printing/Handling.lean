import DeviceSnapshot.Proofs.Printing.Outcome

/-!
# Which snapshots a printer handles

A printer is asked first whether it should handle a snapshot, and what it does not handle is taken
over as text. The question looks at less than printing does, and yet the two agree: a snapshot that
is not handled could not have been printed in normal form either
(`Printer.failsWith_of_test_eq_false`). So asking first does not change the text
(`Printer.render_fst`); all that it can save is the warning.

For texts the question is exact up to the rules. A printer with rules handles a text if it is one of
a record, whether or not the entries of the record can be amended.
-/

namespace DeviceSnapshot

namespace Snapshot

theorem isEmpty_iff {s : Snapshot} : s.isEmpty = true ↔ s = .text "" ∨ s = .bytes [] := by
  rcases s with text | bs <;> simp [isEmpty]

theorem holds_of_isEmpty {s : Snapshot} (h : s.isEmpty = true) : s.Holds "" := by
  rcases isEmpty_iff.mp h with rfl | rfl
  · exact .text ""
  · exact .bytes ""

end Snapshot

namespace Printer

variable {p : Printer} {s : Snapshot} {t : Table} {text out : String} {log : List LogLine}

/-! ## Snapshots that are not handled -/

theorem failsWith_of_isEmpty (p : Printer) (h : s.isEmpty = true) :
    p.FailsWith s .undecodable [] := by
  have hnone : Json.decode? "" = none := by
    rw [Json.decode?, String.toList_empty, Token.tokens?]
    rfl
  exact .undecodable (Snapshot.holds_of_isEmpty h) hnone

theorem test_text_eq_true_iff :
    (device t).test (.text text) = true ↔ ∃ r, Json.decode? text = some (.obj r) := by
  rw [test]
  rcases hdecode : Record.decode text with cause | r
  · simp [← Record.decode_eq_ok_iff, hdecode]
  · simp [← Record.decode_eq_ok_iff, hdecode]

/-- **A snapshot that is not handled cannot be printed.** It does not even decode to a record. -/
theorem failsWith_of_test_eq_false (h : p.test s = false) :
    ∃ cause, p.FailsWith s cause [] ∧
      (cause = .undecodable ∨ ∃ kind, cause = .notARecord kind) := by
  have hempty : s.isEmpty = true → ∃ cause, p.FailsWith s cause [] ∧
      (cause = .undecodable ∨ ∃ kind, cause = .notARecord kind) := by
    intro hs
    exact ⟨_, p.failsWith_of_isEmpty hs, .inl rfl⟩
  rcases p with t | _
  · rcases s with text | bs
    · have hnot : ∀ r, Json.decode? text ≠ some (.obj r) := by
        intro r hr
        rw [test_text_eq_true_iff.mpr ⟨r, hr⟩] at h
        cases h
      rcases hv : Json.decode? text with _ | v
      · exact ⟨_, .undecodable (.text text) hv, .inl rfl⟩
      · have hkind : v.kind ≠ .object := by
          intro hkind
          obtain ⟨r, rfl⟩ := Json.kind_eq_object_iff.mp hkind
          exact hnot r hv
        exact ⟨_, .notARecord (.text text) hv hkind, .inr ⟨_, rfl⟩⟩
    · exact hempty (by simpa [test, Snapshot.isEmpty] using h)
  · exact hempty (by simpa [test] using h)

theorem Prints.render_eq (h : p.Prints s out log) : p.render s = (out, log) := by
  have htest : p.test s = true := by
    rw [← Bool.not_eq_false]
    intro hfalse
    obtain ⟨cause, hfails, -⟩ := failsWith_of_test_eq_false hfalse
    exact h.not_failsWith hfails
  rw [render, if_pos htest, h.print_eq]
  rfl

/-- **Asking first does not change the text.** -/
theorem render_fst (p : Printer) (s : Snapshot) : (p.render s).1 = (p.print s).1.text := by
  rw [render]
  split
  · rfl
  · next h =>
    rw [Bool.not_eq_true] at h
    obtain ⟨cause, hfails, -⟩ := failsWith_of_test_eq_false h
    rw [hfails.print_eq]
    rfl

/-! ## Texts that are handled -/

theorem print_of_test_text (h : (device t).test (.text text) = true) :
    (∃ out, ((device t).print (.text text)).1 = .normalized out) ∨
      ∃ key cause, ((device t).print (.text text)).1
        = .passthrough text (.unexpectedShape key cause) := by
  obtain ⟨r, hr⟩ := test_text_eq_true_iff.mp h
  have hord := Record.ordered_of_decode? hr
  rcases Record.amendable_or_exists_firstFault t hord with hall | ⟨key, cause, hfirst⟩
  · have haccepts : (device t).Accepts (.text text) := .device (.text text) hr hall
    obtain ⟨out, log, hprints⟩ := haccepts.exists_prints
    exact .inl ⟨out, fst_print_eq_normalized_iff.mpr ⟨_, hprints⟩⟩
  · have hfails : (device t).FailsWith (.text text) (.unexpectedShape key cause) _ :=
      .unexpectedShape (.text text) hr hfirst
    exact .inr ⟨key, cause, fst_print_eq_passthrough_iff.mpr ⟨rfl, _, hfails⟩⟩

theorem print_of_not_test (h : p.test s = false) :
    (p.print s).1 = .passthrough s.lossyText .undecodable ∨
      ∃ kind, (p.print s).1 = .passthrough s.lossyText (.notARecord kind) := by
  obtain ⟨cause, hfails, rfl | ⟨kind, rfl⟩⟩ := failsWith_of_test_eq_false h
  · exact .inl (fst_print_eq_passthrough_iff.mpr ⟨rfl, _, hfails⟩)
  · exact .inr ⟨kind, fst_print_eq_passthrough_iff.mpr ⟨rfl, _, hfails⟩⟩

theorem test_text_iff_print (t : Table) (text : String) :
    ((device t).test (.text text) = true ↔
      (∃ out, ((device t).print (.text text)).1 = .normalized out) ∨
      ∃ key cause, ((device t).print (.text text)).1
        = .passthrough text (.unexpectedShape key cause)) ∧
    ((device t).test (.text text) = false ↔
      ((device t).print (.text text)).1 = .passthrough text .undecodable ∨
      ∃ kind, ((device t).print (.text text)).1 = .passthrough text (.notARecord kind)) := by
  -- The outcomes of the two cases exclude each other.
  rcases htest : (device t).test (.text text) with _ | _
  · rcases print_of_not_test htest with h | ⟨kind, h⟩ <;> simp [h, Snapshot.lossyText]
  · rcases print_of_test_text htest with ⟨out, h⟩ | ⟨key, cause, h⟩ <;> simp [h]

end Printer

end DeviceSnapshot
