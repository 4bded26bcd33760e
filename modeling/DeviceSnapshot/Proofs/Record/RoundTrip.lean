import DeviceSnapshot.Proofs.Entry.Printable
import DeviceSnapshot.Proofs.Json.RoundTrip
import DeviceSnapshot.Proofs.Record.Collision

/-!
# Printed records read back

The text that is printed for a snapshot without floating-point numbers reads as the record that the
run has produced. Nothing in it can be lost on the way, whatever strings the table and the snapshot
hold. And since the run starts from a text that was read, and amends entries only where there is
room left, its output is never nested too deep to be read again.
-/

namespace DeviceSnapshot

namespace Record

open Json

variable {t : Table}

theorem text_of_ordered {r : Record} (hr : r.Ordered) : r.text = Json.pretty (.obj r) := by
  rw [text, hr.ofList_eq]

theorem decode_text {r : Record} (h : Printable 0 (.obj r)) : decode (text r) = .ok r := by
  rw [decode, value, text_of_ordered h.ordered.1, decode?_pretty h]

theorem decode_eq_ok_iff {text : String} {r : Record} :
    decode text = .ok r ↔ decode? text = some (.obj r) := by
  rw [decode, value]
  cases h : decode? text with
  | none => simp
  | some v => cases v <;> simp

/-- **The output of a run can be printed.** -/
theorem printable_applyRules {r o : Record} (hr : Printable 0 (.obj r))
    (h : (applyRules t r).1 = .ok o) : Printable 0 (.obj o) := by
  obtain ⟨hdepth, hkeys, hentries⟩ := printable_obj_iff.mp hr
  obtain ⟨-, hcol⟩ := collected_of_applyRules hkeys h
  refine printable_obj_iff.mpr ⟨hdepth, hcol.ordered, fun e he ↦ ?_⟩
  -- Every entry of the output is the outcome of some entry.
  obtain ⟨e₀, he₀, -, -, hv⟩ := (hcol.get?_iff e.1 e.2).mp (Keyed.get?_of_mem hcol.ordered he)
  cases hrule : t.rule? e₀.1 with
  | none =>
    rw [Table.outcome_of_rule?_none hrule] at hv
    exact Except.ok.inj hv ▸ hentries e₀ he₀
  | some rule =>
    have happly := (Table.outcome_eq_ok_iff_of_rule? hrule).mp hv
    exact Action.printable_applyAll (by decide) (hentries e₀ he₀) happly

/-- **Round trip.** When the text of a snapshot without floating-point numbers is normalized, the
printed text reads as the record that the run over the snapshot has produced, and so it nests no
deeper than can be read. -/
theorem decode_normalize (t : Table) {text out : String} {log : List LogLine}
    (hfloat : ∀ v, decode? text = some v → v.FloatFree)
    (h : normalize t text = (.ok out, log)) :
    ∃ r o, decode text = .ok r ∧ applyRules t r = (.ok o, log) ∧ decode out = .ok o ∧
      (Json.obj o).depth ≤ maxDepth := by
  cases hdecode : decode text with
  | error fault =>
    rw [normalize, hdecode] at h
    cases h
  | ok r =>
    rw [normalize_of_decode hdecode] at h
    obtain ⟨hout, hlog⟩ := Prod.mk.inj h
    have hvalue := decode_eq_ok_iff.mp hdecode
    have hr : Printable 0 (.obj r) := ⟨fits_of_decode? hvalue, hfloat _ hvalue⟩
    obtain ⟨o, hrules, rfl⟩ := map_eq_ok_iff.mp hout
    have ho := printable_applyRules hr hrules
    exact ⟨r, o, rfl, Prod.ext hrules hlog, decode_text ho, ho.depth_le⟩

/-- Quotes, backslashes and control characters come through. -/
theorem decode_normalize_escapes :
    let t : Table := {
      name := "t"
      layout := { encoding := .tagged, fields := {} }
      rules := [⟨⟨"q", Expr.isMatch (.chars (.single 'q'))⟩, "\"\\\n", [.dmUuid "\x01"]⟩] }
    let r : Record := [("q", .wrap "Object" (.arr []))]
    let o : Record := [("\"\\\n", .wrap "Object"
      (.arr [.arr [.str "DM_UUID", .wrap "String" (.str "\x01")]]))]
    (∀ v, decode? (text r) = some v → v.FloatFree) ∧
      normalize t (text r) = (.ok (text o), [⟨.debug, .rules, "t: q -> \"\\\n"⟩]) ∧
      decode (text o) = .ok o := by
  intro t r o
  have hr : Printable 0 (.obj r) := by
    refine printable_obj_iff.mpr ⟨by decide, by decide +kernel, fun e he ↦ ?_⟩
    rw [List.mem_singleton.mp he]
    exact printable_wrap_iff.mpr (printable_arr_iff.mpr ⟨by decide, by simp⟩)
  have hdecode : decode (text r) = .ok r := decode_text hr
  have hfloat : ∀ v, decode? (text r) = some v → v.FloatFree := by
    intro v hv
    rw [decode_eq_ok_iff.mp hdecode] at hv
    exact Option.some.inj hv ▸ hr.floatFree
  have hrules : applyRules t r = (.ok o, [⟨.debug, .rules, "t: q -> \"\\\n"⟩]) := rfl
  have h : normalize t (text r) = (.ok (text o), [⟨.debug, .rules, "t: q -> \"\\\n"⟩]) := by
    rw [normalize_of_decode hdecode, hrules]
    rfl
  obtain ⟨r', o', hr', ho', hout, -⟩ := decode_normalize t hfloat h
  obtain rfl : r = r' := Except.ok.inj (hdecode.symm.trans hr')
  obtain rfl : o = o' := Except.ok.inj (Prod.mk.inj (hrules.symm.trans ho')).1
  exact ⟨hfloat, h, hout⟩

end Record

end DeviceSnapshot
