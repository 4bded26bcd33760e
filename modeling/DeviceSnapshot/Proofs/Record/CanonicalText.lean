import DeviceSnapshot.Proofs.Json.Names
import DeviceSnapshot.Proofs.Record.RoundTrip

/-!
# The text of a record depends on its content only

How a record was filled does not show in its text. Of the values that were written under a key the
last one is kept, so two runs of insertions that end with the same values give one record. And a
record is written in one way: writing sorts its entries, and the objects below them come sorted, so
the names in every object of the text are in the order of their bytes.
-/

namespace DeviceSnapshot

namespace Record

open Json

variable {r : Record}

/-- The names in the text of a record: those in the objects of its entries, then its own keys. -/
theorem namesOf_text (hr : r.Ordered) :
    namesOf (text r) = (r.flatMap fun e ↦ e.2.objectNames) ++ [r.keys] := by
  rw [text_of_ordered hr, namesOf_pretty, objectNames, memberNames_eq_flatMap]

/-- **Canonical text.** Insertions that leave the same last value under each key give records with
one text. In the text of a record, the names at the top level are its keys, those of every object
below are the keys of that object, and each of them stands there once, in the order of their
bytes. -/
theorem text_canonical {r : Record} (hr : (Json.obj r).Ordered) :
    (∀ es es' : List (String × Json),
      (∀ k v, Keyed.LastUnder es k v ↔ Keyed.LastUnder es' k v) →
      text (Keyed.insertAll r es) = text (Keyed.insertAll r es')) ∧
    namesOf (text r) = (r.flatMap fun e ↦ e.2.objectNames) ++ [r.keys] ∧
    ∀ names ∈ namesOf (text r), names.Nodup ∧ names.Pairwise Utf8.Precedes := by
  refine ⟨fun es es' hlast ↦ ?_, namesOf_text hr.1, fun names hnames ↦ ?_⟩
  · rw [Keyed.insertAll_eq_of_lastUnder hr.1 hlast]
  · rw [text_of_ordered hr.1, namesOf_pretty] at hnames
    have hlt := pairwise_of_mem_objectNames _ hr names hnames
    exact ⟨hlt.imp String.ne_of_lt, hlt.imp Utf8.precedes_of_lt⟩

/-- A value that is written over does not show, and neither does the order in which two keys are
written. The keys of the inner object stand apart from those around it. -/
theorem text_canonical_overwritten :
    let inner : Json := .obj [("A", .null), ("a:\"", .arr [.obj []])]
    let r : Record := [("~", inner), ("é", .str "\": \x7b")]
    let es : List (String × Json) := [("z", .null), ("~", .bool true), ("z", .arr [])]
    let es' : List (String × Json) := [("~", .bool true), ("z", .arr [])]
    text (Keyed.insertAll r es) = text (Keyed.insertAll r es') ∧
      namesOf (text r) = [[], ["A", "a:\""], ["~", "é"]] ∧
      Utf8.Precedes "A" "a:\"" ∧ Utf8.Precedes "~" "é" := by
  intro inner r es es'
  have hr : (Json.obj r).Ordered := by decide +kernel
  have hlast : ∀ k v, Keyed.LastUnder es k v ↔ Keyed.LastUnder es' k v := by
    intro k v
    have hget : Keyed.get? es.reverse k = Keyed.get? es'.reverse k := by
      by_cases hz : "z" = k <;> simp [es, es', Keyed.get?, hz]
    rw [Keyed.lastUnder_iff, Keyed.lastUnder_iff, hget]
  obtain ⟨htext, hnames, horder⟩ := text_canonical hr
  have hnames : namesOf (text r) = [[], ["A", "a:\""], ["~", "é"]] := hnames
  rw [hnames] at horder
  exact ⟨htext es es' hlast, hnames, by simpa using (horder ["A", "a:\""] (by simp)).2,
    by simpa using (horder ["~", "é"] (by simp)).2⟩

end Record

end DeviceSnapshot
