import DeviceSnapshot.Proofs.Json.Document
import DeviceSnapshot.Proofs.Printing.Outcome

/-!
# The order of members does not show

Two snapshots that differ only in the order in which the members of objects are written, at whatever
depth, come out alike: as the same text in normal form, or each as it came in with the same cause.
All that a printer does after decoding it does with the value, so this is a consequence of the law
that reordered documents have one value.
-/

namespace DeviceSnapshot

namespace Printer

open Json

/-- Apart from returning it, a printer sees of a snapshot only the value that its text writes. -/
theorem attempt_eq_of_decode?_eq (p : Printer) {s s' : Snapshot} {text text' : String}
    (hs : s.Holds text) (hs' : s'.Holds text') (h : decode? text = decode? text') :
    p.attempt s = p.attempt s' := by
  have hvalue : Record.value text = Record.value text' := by
    rw [Record.value, Record.value, h]
  rw [attempt, attempt, Snapshot.asText_eq_ok_iff.mpr hs, Snapshot.asText_eq_ok_iff.mpr hs']
  cases p with
  | device t =>
    dsimp only
    rw [Record.normalize, Record.normalize, Record.decode, Record.decode, hvalue]
  | object =>
    dsimp only
    rw [hvalue]

/-- **The order of members does not matter.** If no object of a document has two members with one
name, the documents that arise from it by reordering members at any depth are all printed alike:
they have the same text in normal form, or each is returned as it came in with the same cause, and
the same is reported. -/
theorem print_of_reordered (p : Printer) {d d' : Document} (hd : d.DistinctNames)
    (h : d.Reordered d') {s s' : Snapshot} (hs : s.Holds d.text) (hs' : s'.Holds d'.text) :
    (∃ out log, p.print s = (.normalized out, log) ∧ p.print s' = (.normalized out, log)) ∨
    ∃ cause log, p.print s = (.passthrough d.text cause, log) ∧
      p.print s' = (.passthrough d'.text cause, log) := by
  have hvalue : decode? d.text = decode? d'.text := by
    rw [d.decode?_text, d'.decode?_text, h.read?_eq hd]
  have hattempt := p.attempt_eq_of_decode?_eq hs hs' hvalue
  have htext := Snapshot.lossyText_of_holds hs
  have htext' := Snapshot.lossyText_of_holds hs'
  rw [print, print, ← hattempt, htext, htext']
  rcases p.attempt s with ⟨_ | _, log⟩
  · exact .inr ⟨_, _, rfl, rfl⟩
  · exact .inl ⟨_, _, rfl, rfl⟩

/-- Two entries have an unexpected shape, and another one is an object. Whichever of the two is
written first, and in whichever order the object is written, the one whose key comes first in the
order of keys is the cause. -/
theorem print_of_reordered_faults :
    let e : Spelling.Quoted := [.plain 'e' (by decide)]
    let f : Spelling.Quoted := [.plain 'f' (by decide)]
    let g : Spelling.Quoted := [.unit '0' '0' '6' '7' (by decide)]
    let d : Document := .obj [(f, .scalar (.bool true)), (g, .obj [(f, .arr []), (e, .arr [])]),
      (e, .scalar .null)]
    let d' : Document := .obj [(e, .scalar .null), (g, .obj [(e, .arr []), (f, .arr [])]),
      (f, .scalar (.bool true))]
    let t : Table := {
      name := "t"
      layout := { encoding := .plain, fields := {} }
      rules := [⟨⟨"e", Expr.isMatch (.chars (.single 'e'))⟩, "x", [.devpath "p"]⟩,
        ⟨⟨"f", Expr.isMatch (.chars (.single 'f'))⟩, "y", [.devpath "p"]⟩] }
    let cause : SnapshotFault := .unexpectedShape "e" (.notAContainer .plain)
    let log : List LogLine := [⟨.debug, .rules, "t: e -> x"⟩,
      ⟨.warn, .printing, "t: returning snapshot unchanged: " ++ cause.message⟩]
    d.DistinctNames ∧ d.Reordered d' ∧
      (device t).print (.text d.text) = (.passthrough d.text cause, log) ∧
      (device t).print (.bytes (Utf8.bytes d'.text)) = (.passthrough d'.text cause, log) := by
  intro e f g d d' t cause log
  have hinner : (Document.obj [(f, .arr []), (e, .arr [])]).DistinctNames :=
    .obj (by subst e f; decide +kernel) (by simp [Document.DistinctNames.arr])
  have hd : d.DistinctNames := by
    refine .obj (by subst e f g; decide +kernel) ?_
    simp [hinner, Document.DistinctNames.scalar]
  have hreordered : d.Reordered d' := by
    have hswap : (Document.obj [(f, .arr []), (e, .arr [])]).Reordered
        (.obj [(e, .arr []), (f, .arr [])]) := .members (.swap _ _ _)
    have hin := Document.Reordered.inMember [(f, .scalar (.bool true))] [(e, .scalar .null)] g hswap
    exact hin.trans (.members (List.reverse_perm _).symm)
  have hdecode : Record.decode d.text
      = .ok [("e", .null), ("f", .bool true), ("g", .obj [("e", .arr []), ("f", .arr [])])] :=
    Record.decode_eq_ok_iff.mpr (d.decode?_text.trans (by subst e f g; rfl))
  have hprint : (device t).print (.text d.text) = (.passthrough d.text cause, log) := by
    rw [print, attempt, Snapshot.asText]
    dsimp only
    rw [Record.normalize_of_decode hdecode]
    rfl
  refine ⟨hd, hreordered, hprint, ?_⟩
  rcases (device t).print_of_reordered hd hreordered (.text _) (.bytes _) with
    ⟨out, log', h, -⟩ | ⟨cause', log', h, h'⟩
  · rw [hprint] at h
    cases h
  · rw [hprint] at h
    cases h
    exact h'

end Printer

end DeviceSnapshot
