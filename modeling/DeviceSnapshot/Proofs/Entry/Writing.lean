import DeviceSnapshot.Proofs.Entry.Container

/-!
# When a write keeps its promise

A write to a field promises four things: the entry keeps its container, the field reads as what was
written, every other field reads as before, and of two writes to one field only the second shows.
For a container with its kind decided they all hold (`Container.get?_upsert_self` and what follows
it). An entry carries no such decision; its kind is read off its content, which the write changes.

So the promise holds of an entry exactly if the new entry is read as the kind of container that was
written to, and it fails for one kind of write only (`Converts`): in a tagged layout, a bare array
under the name `Object`, in an object that has no other member and was not a pairs container before.
What was written as a member is then read as the pairs of the entry. No action writes like this
(`Layout.Reads.applyTo`).
-/

namespace DeviceSnapshot

namespace Layout

variable {layout : Layout} {entry entry' : Json} {field : String} {v : Json} {c c' : Container}
  {ms : Keyed Json}

/-- A write took place, and nothing else. -/
structure Stored (layout : Layout) (field : String) (v entry entry' : Json) : Prop where
  /-- The entry is read as a pairs container if it was before. -/
  container : (layout.pairs? entry').isSome = (layout.pairs? entry).isSome
  self : layout.get? entry' field = .ok (some v)
  /-- Every other field has the value that it had, is absent if it was, or fails as it did. -/
  others : ∀ other, other ≠ field → layout.get? entry' other = layout.get? entry other
  again : ∀ w, layout.upsert entry' field w = layout.upsert entry field w

/-- A write that makes a pairs container of an entry that was none. -/
def Converts (layout : Layout) (field : String) (v entry : Json) : Prop :=
  layout.encoding = .tagged ∧ field = "Object" ∧ (∃ items, v = .arr items) ∧
    (entry = .obj [] ∨ ∃ u, entry = .obj [("Object", u)] ∧ ∀ items, u ≠ .arr items)

theorem of_upsert_eq_ok (h : layout.upsert entry field v = .ok entry') :
    ∃ c c', layout.container entry = .ok c ∧ c.upsert field v = .ok c' ∧ entry' = c'.toJson := by
  rw [upsert_eq, bind_eq_ok_iff] at h
  obtain ⟨c, hc, h⟩ := h
  obtain ⟨c', hc', hentry'⟩ := map_eq_ok_iff.mp h
  exact ⟨c, c', hc, hc', hentry'.symm⟩

/-- **The promise holds if the new container is read as what it is.** -/
theorem stored_of_reads (hc : layout.container entry = .ok c) (hup : c.upsert field v = .ok c')
    (hreads : layout.Reads c') : layout.Stored field v entry c'.toJson where
  container := by
    rcases c with ps | ms
    · obtain ⟨qs, -, rfl⟩ := Container.upsert_pairs_eq_ok hup
      rw [container_eq_pairs_iff.mp hc, container_eq_pairs_iff.mp hreads]
      rfl
    · obtain rfl : .members (Keyed.insert ms field v) = c' := Except.ok.inj hup
      rw [(container_eq_members_iff.mp hc).1, (container_eq_members_iff.mp hreads).1]
  self := (get?_of_container hreads field).trans (Container.get?_upsert_self hup)
  others other hother := by
    rw [get?_of_container hreads, get?_of_container hc, Container.get?_upsert_of_ne hup hother]
  again w := by
    rw [upsert_of_container hreads, upsert_of_container hc, Container.upsert_upsert_self hup]

/-- Members that are read as members stop being so after a write that converts them, and after no
other. -/
theorem reads_insert_iff (hms : layout.Reads (.members ms)) :
    layout.Reads (.members (Keyed.insert ms field v)) ↔ ¬layout.Converts field v (.obj ms) := by
  rw [reads_members_iff] at hms ⊢
  constructor
  · rintro h ⟨htagged, rfl, ⟨items, rfl⟩, hobj⟩
    rcases hobj with hnil | ⟨u, hsingle, -⟩
    · obtain rfl : ms = [] := Json.obj.inj hnil
      exact h htagged items rfl
    · obtain rfl : ms = [("Object", u)] := Json.obj.inj hsingle
      exact h htagged items rfl
  · intro h htagged ps hins
    obtain ⟨rfl, rfl, hfew⟩ := Keyed.of_insert_eq_singleton hins
    refine h ⟨htagged, rfl, ⟨ps, rfl⟩, ?_⟩
    rcases hfew with rfl | ⟨u, rfl⟩
    · exact .inl rfl
    · refine .inr ⟨u, rfl, ?_⟩
      rintro items rfl
      exact hms htagged items rfl

theorem not_converts_of_pairs? {ps : List Json} (h : layout.pairs? entry = some ps) :
    ¬layout.Converts field v entry := by
  obtain ⟨-, rfl⟩ := pairs?_eq_some_iff.mp h
  rintro ⟨-, -, -, hnil | ⟨u, hsingle, hu⟩⟩
  · cases hnil
  · cases hsingle
    exact hu ps rfl

/-- **A write keeps its promise unless it converts the entry,** and then it does not even keep the
container. -/
theorem stored_iff_not_converts (layout : Layout) (field : String) (v entry entry' : Json)
    (h : layout.upsert entry field v = .ok entry') :
    (layout.Stored field v entry entry' ↔ ¬layout.Converts field v entry) ∧
      (layout.Converts field v entry →
        layout.pairs? entry = none ∧ (layout.pairs? entry').isSome = true) := by
  obtain ⟨c, c', hc, hup, rfl⟩ := of_upsert_eq_ok h
  rcases c with ps | ms
  · have hps := container_eq_pairs_iff.mp hc
    have hnot : ¬layout.Converts field v entry := not_converts_of_pairs? hps
    obtain ⟨qs, -, rfl⟩ := Container.upsert_pairs_eq_ok hup
    have hreads : layout.Reads (.pairs qs) :=
      reads_pairs_iff.mpr (pairs?_eq_some_iff.mp hps).1
    exact ⟨iff_of_true (stored_of_reads hc hup hreads) hnot, fun hconv ↦ absurd hconv hnot⟩
  · obtain ⟨hnone, rfl⟩ := container_eq_members_iff.mp hc
    obtain rfl : .members (Keyed.insert ms field v) = c' := Except.ok.inj hup
    have hconverted : layout.Converts field v (.obj ms) →
        (layout.pairs? (.obj (Keyed.insert ms field v))).isSome = true := by
      intro hconv
      rw [Option.isSome_iff_ne_none]
      intro hnone'
      exact (reads_insert_iff hc).mp (container_obj hnone') hconv
    refine ⟨⟨fun hstored hconv ↦ ?_, fun hnot ↦ ?_⟩, fun hconv ↦ ⟨hnone, hconverted hconv⟩⟩
    · have hcontainer := hstored.container
      rw [Container.toJson, hconverted hconv, hnone] at hcontainer
      cases hcontainer
    · exact stored_of_reads hc hup ((reads_insert_iff hc).mpr hnot)

/-- An array is written under the name `Object`, once into a pairs container that has such a field,
and once into an object that has it beside another member. -/
theorem stored_array_under_tag :
    let layout : Layout := ⟨.tagged, {}⟩
    let v := Json.arr [.arr [.str "a", .null]]
    let pairs (w : Json) := Json.obj [("Object", .arr [.arr [.str "Object", w]])]
    let members (w : Json) := Json.obj [("Object", w), ("a", .null)]
    layout.upsert (pairs .null) "Object" v = .ok (pairs v) ∧
      layout.Stored "Object" v (pairs .null) (pairs v) ∧
      layout.upsert (members .null) "Object" v = .ok (members v) ∧
      layout.Stored "Object" v (members .null) (members v) := by
  intro layout v pairs members
  have hpairs : layout.upsert (pairs .null) "Object" v = .ok (pairs v) := rfl
  have hmembers : layout.upsert (members .null) "Object" v = .ok (members v) := rfl
  have hread : layout.pairs? (pairs .null) = some [.arr [.str "Object", .null]] := rfl
  have hnot : ∀ entry, (∀ u, entry ≠ .obj [("Object", u)]) → entry ≠ .obj [] →
      ¬layout.Converts "Object" v entry := by
    rintro entry hsingle hnil ⟨-, -, -, hentry | ⟨u, hentry, -⟩⟩
    · exact hnil hentry
    · exact hsingle u hentry
  refine ⟨hpairs, (stored_iff_not_converts layout "Object" v _ _ hpairs).1.mpr ?_, hmembers,
    (stored_iff_not_converts layout "Object" v _ _ hmembers).1.mpr (hnot _ ?_ ?_)⟩
  · exact not_converts_of_pairs? hread
  · simp [members]
  · simp [members]

/-- **The promise fails.** A list of pairs is written under the name `Object` into an entry without
fields. All four parts fail: the entry is a pairs container afterwards, the field is absent, another
field appears, and a second write leaves the first one in place. -/
theorem not_stored_under_tag :
    let layout : Layout := ⟨.tagged, {}⟩
    let v := Json.arr [.arr [.str "a", .null]]
    let entry' := Json.obj [("Object", v)]
    layout.upsert (.obj []) "Object" v = .ok entry' ∧
      layout.pairs? (.obj []) = none ∧ (layout.pairs? entry').isSome = true ∧
      layout.get? entry' "Object" = .ok none ∧
      layout.get? (.obj []) "a" = .ok none ∧ layout.get? entry' "a" = .ok (some .null) ∧
      layout.upsert (.obj []) "Object" .null = .ok (.obj [("Object", .null)]) ∧
      layout.upsert entry' "Object" .null
        = .ok (.obj [("Object", .arr [.arr [.str "a", .null], .arr [.str "Object", .null]])]) ∧
      ¬layout.Stored "Object" v (.obj []) entry' := by
  refine ⟨rfl, rfl, rfl, rfl, rfl, rfl, rfl, rfl, ?_⟩
  intro hstored
  exact absurd hstored.container (by decide)

end Layout

end DeviceSnapshot
