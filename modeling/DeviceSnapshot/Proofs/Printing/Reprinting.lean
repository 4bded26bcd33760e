import DeviceSnapshot.CommandLine.Run
import DeviceSnapshot.Proofs.Json.Document
import DeviceSnapshot.Proofs.Printing.Outcome
import DeviceSnapshot.Proofs.Record.Stability

/-!
# Printing again

What a printer returns is a text, and so a snapshot that may be given to the printer again. Text in
normal form is printed as it is, provided that the table, if there is one, leaves its own output
alone. A text that was returned as it came in is the same snapshot, and comes out the same way. In
both cases the second rendering is the first one (`Printer.print_text_print`), and so are all that
follow (`Printer.reprint_of_holds`).

Bytes that are no encoding take one step more. They are returned with their faults replaced, and the
text with the replacements may be one that can be read; from there on nothing changes.
-/

namespace DeviceSnapshot

/-- There is no floating-point number in the value that a snapshot writes, if it writes one. -/
def Snapshot.FloatFree (s : Snapshot) : Prop :=
  ∀ v, Json.decode? s.lossyText = some v → v.FloatFree

namespace Printer

variable {p : Printer} {s : Snapshot} {text out : String} {log : List LogLine}

/-- A printer that leaves its own output alone: its table does, or it has no rules. -/
inductive Stable : Printer → Prop
  | object : Stable .object
  | device {t : Table} (ht : t.Stable) : Stable (.device t)

/-- A snapshot is printed, then the printed text, and so on. -/
def reprint (p : Printer) (s : Snapshot) : Nat → Rendering
  | 0 => (p.print s).1
  | n + 1 => (p.print (.text (reprint p s n).text)).1

/-- The printers of the program are stable. -/
theorem exists_stable_printer (mode : PrintMode) :
    ∃ p, Command.printer mode = .ok p ∧ p.Stable := by
  rcases mode with b | _
  · obtain ⟨t, htable, ht⟩ := b.exists_stable
    refine ⟨.device t, ?_, .device ht⟩
    rw [Command.printer, htable]
    rfl
  · exact ⟨.object, rfl, .object⟩

/-! ## One step -/

theorem print_of_holds (p : Printer) (h : s.Holds text) : p.print s = p.print (.text text) := by
  have hattempt : p.attempt s = p.attempt (.text text) := by
    rw [attempt, attempt, Snapshot.asText_eq_ok_iff.mpr h, Snapshot.asText]
  rw [print, print, hattempt, Snapshot.lossyText_of_holds h, Snapshot.lossyText]

theorem print_of_not_holds (p : Printer) (h : ∀ text, ¬s.Holds text) :
    ∃ fault, (p.print s).1 = .passthrough s.lossyText (.notUtf8 fault) := by
  rcases htext : s.asText with cause | text
  · obtain ⟨bs, fault, rfl, hfault, rfl⟩ := Snapshot.asText_eq_error_iff.mp htext
    have hfails : p.FailsWith (.bytes bs) (.notUtf8 fault) [] := .notUtf8 h hfault
    exact ⟨fault, fst_print_eq_passthrough_iff.mpr ⟨rfl, _, hfails⟩⟩
  · exact absurd (Snapshot.asText_eq_ok_iff.mp htext) (h text)

/-- **What is in normal form stays as it is.** -/
theorem Prints.prints_text (hp : p.Stable) (hs : s.FloatFree) (h : p.Prints s out log) :
    ∃ log', p.Prints (.text out) out log' := by
  cases h with
  | object htext hv =>
    have hfloat := hs _ ((Snapshot.lossyText_of_holds htext).symm ▸ hv)
    exact ⟨_, .object (.text _) (Json.decode?_pretty ⟨Json.fits_of_decode? hv, hfloat⟩)⟩
  | @device t s text r o htext hr hall ho =>
    cases hp with | device ht =>
    have hfloat := hs _ ((Snapshot.lossyText_of_holds htext).symm ▸ hr)
    have hprintable : Json.Printable 0 (.obj r) := ⟨Json.fits_of_decode? hr, hfloat⟩
    -- The output reads back as a record, and a run over this record changes nothing.
    have hread : Record.decode o.text = .ok o :=
      Record.decode_text (Record.printable_applyRules hprintable ho)
    have hagain := Record.applyRules_of_stable ht hprintable.ordered ho
    have hdecode := Record.decode_eq_ok_iff.mp hread
    have hord := Record.ordered_of_decode? hdecode
    have hall' : o.Amendable t :=
      (Record.amendable_iff hord).mpr (Record.collected_of_applyRules hord hagain).1
    exact ⟨_, .device (.text _) hdecode hall' hagain⟩

/-- **The second rendering is the first.** -/
theorem print_text_print (hp : p.Stable) (hs : s.FloatFree) (h : s.Holds text) :
    (p.print (.text (p.print s).1.text)).1 = (p.print s).1 := by
  rcases p.exists_prints_or_failsWith s with ⟨out, log, hprints⟩ | ⟨cause, log, hfails⟩
  · obtain ⟨log', hagain⟩ := hprints.prints_text hp hs
    rw [hprints.print_eq, Rendering.text, hagain.print_eq]
  · have htext : (p.print s).1.text = text := by
      rw [hfails.print_eq, Rendering.text, Snapshot.lossyText_of_holds h]
    rw [htext, print_of_holds p h]

/-! ## All further steps -/

theorem reprint_of_holds (hp : p.Stable) (hs : s.FloatFree) (h : s.Holds text) (n : Nat) :
    p.reprint s n = (p.print s).1 := by
  induction n with
  | zero => rfl
  | succ n ih => rw [reprint, ih, print_text_print hp hs h]

theorem reprint_succ (p : Printer) (s : Snapshot) (n : Nat) :
    p.reprint s (n + 1) = p.reprint (.text (p.print s).1.text) n := by
  induction n with
  | zero => rfl
  | succ n ih => rw [reprint, ih, reprint]

theorem reprint_succ_of_not_holds (hp : p.Stable) (hs : s.FloatFree)
    (h : ∀ text, ¬s.Holds text) (n : Nat) :
    p.reprint s (n + 1) = (p.print (.text s.lossyText)).1 := by
  obtain ⟨fault, hfault⟩ := p.print_of_not_holds h
  have hfree : (Snapshot.text s.lossyText).FloatFree := hs
  rw [reprint_succ, hfault]
  exact reprint_of_holds hp hfree (.text _) n

/-- **Printing again changes nothing.** The printers of the program are stable. For a stable printer
and a snapshot without floating-point numbers all renderings are the first one, if the snapshot
holds a text; other bytes are returned with their faults replaced, and all renderings after that are
the second one. -/
theorem reprint_eq_of_stable :
    (∀ mode : PrintMode, ∃ p, Command.printer mode = .ok p ∧ p.Stable) ∧
    ∀ p : Printer, p.Stable → ∀ s : Snapshot, s.FloatFree →
      ((∃ text, s.Holds text) → ∀ n, p.reprint s n = p.reprint s 0) ∧
      ((∀ text, ¬s.Holds text) →
        (∃ fault, p.reprint s 0 = .passthrough s.lossyText (.notUtf8 fault)) ∧
        ∀ n, p.reprint s (n + 1) = p.reprint s 1) := by
  refine ⟨exists_stable_printer, ?_⟩
  intro p hp s hs
  constructor
  · rintro ⟨text, htext⟩ n
    exact reprint_of_holds hp hs htext n
  · intro hnot
    refine ⟨p.print_of_not_holds hnot, ?_⟩
    intro n
    rw [reprint_succ_of_not_holds hp hs hnot, reprint_succ_of_not_holds hp hs hnot]

/-- A byte that is no text keeps a record from being read. It is replaced in the first rendering, so
the second one is in normal form, and it is the last that is new. -/
theorem reprint_replaced :
    let m : Json.Spelling.Quoted := [.plain 'm' (by decide), .plain '\ufffd' (by decide)]
    let d : Json.Document := .obj [(m, .obj [])]
    let bs : List UInt8 := [0x7b, 0x22, 0x6d, 0xff, 0x22, 0x3a, 0x7b, 0x7d, 0x7d]
    let t : Table := {
      name := "t"
      layout := { encoding := .plain, fields := {} }
      rules := [⟨⟨"m", Expr.isMatch (.chars (.single 'm'))⟩, "m", [.devpath "x"]⟩] }
    let out := Record.text [("m", .obj [("DEVPATH", .str "x")])]
    (device t).Stable ∧ (Snapshot.bytes bs).FloatFree ∧
      (device t).reprint (.bytes bs) 0 = .passthrough d.text (.notUtf8 (.invalid 1 3)) ∧
      (∀ n, (device t).reprint (.bytes bs) (n + 1) = .normalized out) ∧
      ∀ n, (device t).reprint (.text d.text) n = .normalized out := by
  intro m d bs t out
  have ht : (device t).Stable := .device ⟨by decide, List.forall_mem_singleton.mpr (.inr rfl),
    List.forall_mem_singleton.mpr (by decide), List.forall_mem_singleton.mpr (by decide)⟩
  have hlossy : (Snapshot.bytes bs).lossyText = d.text := by decide +kernel
  have hvalue : Json.decode? d.text = some (.obj [("m\ufffd", .obj [])]) :=
    d.decode?_text.trans (by subst m; rfl)
  have hfree : (Snapshot.text d.text).FloatFree := by
    intro v hv
    rw [Snapshot.lossyText, hvalue] at hv
    rw [← Option.some.inj hv]
    exact Json.floatFree_obj_iff.mpr (by simp [Json.FloatFree, Json.FloatFreeMembers])
  have hfree' : (Snapshot.bytes bs).FloatFree := by
    rw [Snapshot.FloatFree, hlossy]
    exact hfree
  have hfault : Utf8.decode bs = .error (.invalid 1 3) := rfl
  have hnot : ∀ text, ¬(Snapshot.bytes bs).Holds text := by
    intro text h
    rw [Snapshot.holds_bytes_iff, ← Utf8.decode_eq_ok_iff, hfault] at h
    cases h
  have hfirst : (device t).reprint (.bytes bs) 0
      = .passthrough d.text (.notUtf8 (.invalid 1 3)) := by
    have hfails : (device t).FailsWith (.bytes bs) _ [] := .notUtf8 hnot hfault
    rw [reprint, hfails.print_eq, hlossy]
  have hsecond : (device t).reprint (.text d.text) 0 = .normalized out := by
    rw [reprint, print, attempt, Snapshot.asText]
    dsimp only
    rw [Record.normalize_of_decode (Record.decode_eq_ok_iff.mpr hvalue)]
    rfl
  have hstep : (device t).reprint (.bytes bs) 1 = (device t).reprint (.text d.text) 0 := by
    change ((device t).print (.text ((device t).reprint (.bytes bs) 0).text)).1 = _
    rw [hfirst]
    rfl
  obtain ⟨-, hconstant⟩ := (reprint_eq_of_stable.2 (device t) ht (.bytes bs) hfree').2 hnot
  have htext := (reprint_eq_of_stable.2 (device t) ht (.text d.text) hfree).1 ⟨_, .text _⟩
  refine ⟨ht, hfree', hfirst, ?_, ?_⟩
  · intro n
    rw [hconstant, hstep, hsecond]
  · intro n
    rw [htext, hsecond]

end Printer

end DeviceSnapshot
