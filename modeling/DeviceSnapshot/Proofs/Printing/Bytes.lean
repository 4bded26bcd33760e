import DeviceSnapshot.Proofs.Printing.Reprinting
import DeviceSnapshot.Proofs.Utf8.FirstFault

/-!
# Snapshots that come as bytes

A snapshot may come as bytes. If these encode a text, it makes no difference that they are not the
text itself, neither for the text of the snapshot nor for printing. Otherwise there is no text, and
the fault tells how long the longest text is that the bytes begin with. The text that is returned in
place of a missing one keeps this beginning, has one replacement character for the stray behind it,
and goes on in the same way after the stray. So it stands for the bytes only when there is no fault.
-/

namespace DeviceSnapshot

namespace Snapshot

/-- **Bytes are taken for exactly the text that they encode.** -/
theorem text_or_firstFault (bs : List UInt8) :
    (∀ t, asText (.bytes bs) = .ok t ↔ bs = Utf8.bytes t) ∧
    (∀ t, bs = Utf8.bytes t → lossyText (.bytes bs) = t ∧
      ∀ p : Printer, p.print (.bytes bs) = p.print (.text t)) ∧
    ((∀ t, bs ≠ Utf8.bytes t) → ∃ s bad rest fault, Utf8.FirstFault bs s bad rest ∧
      asText (.bytes bs) = .error (.notUtf8 fault) ∧
      (fault = .incomplete (Utf8.bytes s).length ∧ rest = [] ∧ Utf8.Begins bad ∨
        fault = .invalid bad.length (Utf8.bytes s).length ∧ (rest = [] → ¬Utf8.Begins bad)) ∧
      lossyText (.bytes bs) = s ++ "\ufffd" ++ lossyText (.bytes rest)) ∧
    (Utf8.bytes (lossyText (.bytes bs)) = bs ↔ ∃ t, bs = Utf8.bytes t) := by
  refine ⟨fun t ↦ asText_eq_ok_iff.trans holds_bytes_iff, ?_, fun hbs ↦ ?_, fun h ↦ ⟨_, h.symm⟩, ?_⟩
  · rintro t rfl
    exact ⟨lossyText_of_holds (.bytes t), fun p ↦ p.print_of_holds (.bytes t)⟩
  · obtain ⟨s, bad, rest, fault, hfirst, hfault, hkind, hlossy⟩ := Utf8.exists_firstFault hbs
    have htext : asText (.bytes bs) = .error (.notUtf8 fault) :=
      asText_eq_error_iff.mpr ⟨bs, fault, rfl, hfault, rfl⟩
    exact ⟨s, bad, rest, fault, hfirst, htext, hkind, hlossy⟩
  · rintro ⟨t, rfl⟩
    rw [lossyText_of_holds (.bytes t)]

/-- Three bytes would make a character, and the third is that of another one. -/
theorem firstFault_of_broken_off :
    let bs : List UInt8 := [0x61, 0xE2, 0x82, 0xC3, 0xA9, 0xF0, 0x9F]
    (∀ t, bs ≠ Utf8.bytes t) ∧ ∃ s bad rest, Utf8.FirstFault bs s bad rest ∧
      (Utf8.bytes s).length = 1 ∧ bad.length = 2 ∧
      lossyText (.bytes bs) = s ++ "\ufffd" ++ lossyText (.bytes rest) ∧
      lossyText (.bytes bs) = "a\ufffdé\ufffd" := by
  intro bs
  have hfault : asText (.bytes bs) = .error (.notUtf8 (.invalid 2 1)) := by decide +kernel
  have hbs : ∀ t, bs ≠ Utf8.bytes t := by
    intro t ht
    rw [((text_or_firstFault bs).1 t).mpr ht] at hfault
    cases hfault
  obtain ⟨s, bad, rest, fault, hfirst, htext, hkind, hlossy⟩ := (text_or_firstFault bs).2.2.1 hbs
  rw [hfault] at htext
  obtain rfl : Utf8.Fault.invalid 2 1 = fault :=
    SnapshotFault.notUtf8.inj (Except.error.inj htext)
  rcases hkind with ⟨h, -⟩ | ⟨h, -⟩
  · cases h
  · obtain ⟨hbad, hindex⟩ := Utf8.Fault.invalid.inj h
    exact ⟨hbs, s, bad, rest, hfirst, hindex.symm, hbad.symm, hlossy, by decide +kernel⟩

end Snapshot

end DeviceSnapshot
