import DeviceSnapshot.Proofs.CommandLine.Printing

/-!
# Printing with and without rules

The two kinds of printers take different ways. One reads any value and writes it as it is; the other
insists on a record, goes through its entries, and collects them anew. Where no rule says otherwise
the two ways meet: a record that no rule touches is written alike
(`Printer.render_device_eq_render_object`), and what cannot be read at all is returned alike
(`Printer.failsWith_object_iff`). What remains between them is a value that is no record, and an
entry that its rule cannot amend.
-/

namespace DeviceSnapshot

namespace Snapshot

variable {s : Snapshot} {v v' : Json}

/-- The snapshot holds a text that writes the value. -/
def Writes (s : Snapshot) (v : Json) : Prop := ∃ text, s.Holds text ∧ Json.decode? text = some v

theorem Writes.unique (h : s.Writes v) (h' : s.Writes v') : v = v' := by
  have hlossy : ∀ {w}, s.Writes w → Json.decode? s.lossyText = some w := by
    rintro w ⟨text, htext, hw⟩
    rwa [lossyText_of_holds htext]
  exact Option.some.inj ((hlossy h).symm.trans (hlossy h'))

end Snapshot

/-- The snapshot could not be read, whatever was to be done with it. -/
inductive SnapshotFault.IsReading : SnapshotFault → Prop
  | notUtf8 (fault : Utf8.Fault) : IsReading (.notUtf8 fault)
  | undecodable : IsReading .undecodable

namespace Record

variable {t : Table} {r : Record}

/-- A record of keys that no rule matches. -/
def Untouched (t : Table) (r : Record) : Prop :=
  ∀ key ∈ r.keys, ∀ rule ∈ t.rules, rule.keyPattern.isMatch key = false

instance (t : Table) (r : Record) : Decidable (Untouched t r) :=
  inferInstanceAs
    (Decidable (∀ key ∈ r.keys, ∀ rule ∈ t.rules, rule.keyPattern.isMatch key = false))

theorem Untouched.rule?_eq_none (h : r.Untouched t) {key : String} (hkey : key ∈ r.keys) :
    t.rule? key = none := by
  rw [Table.rule?, List.find?_eq_none]
  intro rule hrule
  rw [h key hkey rule hrule]
  exact Bool.false_ne_true

theorem Untouched.amendable (h : r.Untouched t) : r.Amendable t := by
  intro key entry rule hget hrule
  rw [h.rule?_eq_none (Keyed.mem_keys_iff.mpr ⟨entry, hget⟩)] at hrule
  cases hrule

theorem Untouched.applyRules_eq (h : r.Untouched t) (hr : r.Ordered) :
    (applyRules t r).1 = .ok r := by
  apply applyRules_of_forall_fixed hr
  intro e he
  have hnone := h.rule?_eq_none (Keyed.mem_keys_of_mem he)
  exact ⟨Table.target_of_rule?_none hnone, Table.outcome_of_rule?_none hnone e.2⟩

theorem Untouched.filterMap_report (h : r.Untouched t) : r.keys.filterMap t.report = [] := by
  rw [List.filterMap_eq_nil_iff]
  intro key hkey
  rw [Table.report, h.rule?_eq_none hkey]
  rfl

end Record

namespace Printer

variable {p : Printer} {t : Table} {s : Snapshot} {r : Record} {v : Json} {text out : String}
  {cause : SnapshotFault} {log log' : List LogLine}

/-! ## What cannot be read -/

theorem failsWith_object_iff (t : Table) : (∃ log, object.FailsWith s cause log) ↔
    cause.IsReading ∧ ∃ log, (device t).FailsWith s cause log := by
  constructor
  · rintro ⟨log, hfails⟩
    rcases hfails with ⟨hnot, hfault⟩ | ⟨htext, hv⟩
    · exact ⟨.notUtf8 _, _, .notUtf8 hnot hfault⟩
    · exact ⟨.undecodable, _, .undecodable htext hv⟩
  · rintro ⟨hreading, log, hfails⟩
    rcases hfails with ⟨hnot, hfault⟩ | ⟨htext, hv⟩ | _ | _
    · exact ⟨_, .notUtf8 hnot hfault⟩
    · exact ⟨_, .undecodable htext hv⟩
    · cases hreading
    · cases hreading

/-! ## Records that no rule touches -/

theorem prints_object_of_writes (h : s.Writes v) : object.Prints s v.pretty [] := by
  obtain ⟨text, htext, hv⟩ := h
  exact .object htext hv

theorem prints_device_of_untouched (h : s.Writes (.obj r)) (hr : r.Untouched t) :
    (device t).Prints s (Json.pretty (.obj r)) [] := by
  obtain ⟨text, htext, hv⟩ := h
  have hord := Record.ordered_of_decode? hv
  have hprints := Prints.device htext hv hr.amendable (hr.applyRules_eq hord)
  rwa [hr.filterMap_report, Record.text_of_ordered hord] at hprints

/-- **A record that no rule touches is written as if there were no rules.** -/
theorem render_device_eq_render_object (h : s.Writes (.obj r)) (hr : r.Untouched t) :
    (device t).render s = object.render s := by
  rw [(prints_device_of_untouched h hr).render_eq, (prints_object_of_writes h).render_eq]

/-! ## Values that rules keep from being written -/

/-- What rules ask for beyond a value: it is a record, and each entry has the shape that its rule
works on. -/
theorem FailsWith.cause_of_writes (h : (device t).FailsWith s cause log) (hv : s.Writes v) :
    (v.kind ≠ .object ∧ cause = .notARecord v.kind) ∨
      ∃ r key fault, v = .obj r ∧ Record.FirstFault t r key fault ∧
        cause = .unexpectedShape key fault := by
  have hreading : ¬cause.IsReading := by
    intro hreading
    obtain ⟨log', hfails⟩ := (failsWith_object_iff t).mpr ⟨hreading, log, h⟩
    exact (prints_object_of_writes hv).not_failsWith hfails
  rcases h with _ | _ | ⟨htext, hv', hkind⟩ | ⟨htext, hr, hfirst⟩
  · exact absurd (.notUtf8 _) hreading
  · exact absurd .undecodable hreading
  · obtain rfl := hv.unique ⟨_, htext, hv'⟩
    exact .inl ⟨hkind, rfl⟩
  · exact .inr ⟨_, _, _, hv.unique ⟨_, htext, hr⟩, hfirst, rfl⟩

/-- **Rules make a difference only where they apply.** Without rules exactly the snapshots that
cannot be read are returned unchanged, and with rules these are returned in the same way. A record
that no rule touches is written alike with and without rules, as the value that it is, and the
command does the same whichever mode it is asked for. A value that is written only without rules is
no record, or one of its entries has a rule that cannot amend it; the cause says which. -/
theorem device_agrees_with_object :
    (∀ (t : Table) (s : Snapshot) (text : String) (cause : SnapshotFault),
      (object.print s).1 = .passthrough text cause ↔
        cause.IsReading ∧ ((device t).print s).1 = .passthrough text cause) ∧
    (∀ (t : Table) (s : Snapshot) (r : Record), s.Writes (.obj r) → r.Untouched t →
      (device t).print s = (.normalized (Json.pretty (.obj r)), []) ∧
      object.print s = (.normalized (Json.pretty (.obj r)), []) ∧
      (device t).render s = object.render s) ∧
    (∀ r : Record, r.Ordered → r.text = Json.pretty (.obj r)) ∧
    (∀ (b : Builtin) (t : Table) (env : Environment) (file : Option String) (bytes : List UInt8)
      (r : Record), b.table = .ok t → Command.Reads env file bytes →
      (Snapshot.bytes bytes).Writes (.obj r) → r.Untouched t →
      Command.runPrint env file (.rules b) = Command.runPrint env file .noRules) ∧
    ∀ (t : Table) (s : Snapshot) (out text : String) (cause : SnapshotFault),
      (object.print s).1 = .normalized out → ((device t).print s).1 = .passthrough text cause →
      ∃ v, s.Writes v ∧ out = v.pretty ∧
        (∀ kind, cause = .notARecord kind ↔ v.kind = kind ∧ kind ≠ .object) ∧
        ∀ r, v = .obj r → ∃ key fault entry rule, cause = .unexpectedShape key fault ∧
          Keyed.get? r key = some entry ∧ t.rule? key = some rule ∧
          Action.applyAll t.layout rule.actions entry = .error fault := by
  refine ⟨?_, ?_, fun r ↦ Record.text_of_ordered, ?_, ?_⟩
  · intro t s text cause
    rw [fst_print_eq_passthrough_iff, fst_print_eq_passthrough_iff, failsWith_object_iff t,
      and_left_comm]
  · intro t s r hwrites hr
    exact ⟨(prints_device_of_untouched hwrites hr).print_eq,
      (prints_object_of_writes hwrites).print_eq, render_device_eq_render_object hwrites hr⟩
  · intro b t env file bytes r htable hreads hwrites hr
    have hprinter : Command.printer (.rules b) = .ok (device t) := by
      rw [Command.printer, htable]
      rfl
    rw [Command.runPrint_eq hprinter hreads, Command.runPrint_eq rfl hreads, ← render_fst,
      ← render_fst, render_device_eq_render_object hwrites hr]
  · intro t s out text cause hobject hdevice
    obtain ⟨log, hprints⟩ := fst_print_eq_normalized_iff.mp hobject
    obtain ⟨-, log', hfails⟩ := fst_print_eq_passthrough_iff.mp hdevice
    rcases hprints with ⟨htext, hv⟩
    refine ⟨_, ⟨_, htext, hv⟩, rfl, ?_⟩
    rcases hfails.cause_of_writes ⟨_, htext, hv⟩ with
      ⟨hkind, rfl⟩ | ⟨r, key, fault, rfl, hfirst, rfl⟩
    · constructor
      · intro kind
        rw [SnapshotFault.notARecord.injEq]
        constructor
        · rintro rfl
          exact ⟨rfl, hkind⟩
        · exact And.left
      · rintro r rfl
        exact absurd rfl hkind
    · obtain ⟨entry, rule, hget, hrule, hfault⟩ := hfirst.fails
      constructor
      · intro kind
        simp [Json.kind, eq_comm]
      · rintro r' hr'
        cases hr'
        exact ⟨key, fault, entry, rule, rfl, hget, hrule, hfault⟩

/-- An entry that is `null` does no harm where no rule applies, and keeps a record from being
printed where one does. Nothing applies to the empty record. -/
theorem device_agrees_with_object_null :
    let l : Json.Spelling.Quoted := [.plain 'l' (by decide)]
    let n : Json.Spelling.Quoted := [.plain 'n' (by decide)]
    let nothing : Json.Document := .obj []
    let untouched : Json.Document := .obj [(n, .scalar .null)]
    let touched : Json.Document := .obj [(l, .scalar .null)]
    let t : Table := {
      name := "t"
      layout := { encoding := .plain, fields := {} }
      rules := [⟨⟨"l", Expr.isMatch (.chars (.single 'l'))⟩, "l", [.devpath "x"]⟩] }
    let r : Record := [("n", .null)]
    Record.Untouched t r ∧
      (device t).print (.text untouched.text) = (.normalized (Json.pretty (.obj r)), []) ∧
      (object.print (.text touched.text)).1 = .normalized (Json.pretty (.obj [("l", .null)])) ∧
      ((device t).print (.text touched.text)).1
        = .passthrough touched.text (.unexpectedShape "l" (.notAContainer .plain)) ∧
      (∃ v, (Snapshot.text touched.text).Writes v ∧ v.kind = .object) ∧
      (object.print (.bytes [])).1 = .passthrough "" .undecodable ∧
      ((device t).print (.bytes [])).1 = .passthrough "" .undecodable ∧
      ∀ b : Builtin, Command.runPrint ⟨Utf8.bytes nothing.text, fun _ ↦ none, none⟩ none (.rules b)
        = Command.runPrint ⟨Utf8.bytes nothing.text, fun _ ↦ none, none⟩ none .noRules := by
  intro l n nothing untouched touched t r
  have hnothing : (Snapshot.bytes (Utf8.bytes nothing.text)).Writes (.obj []) :=
    ⟨_, .bytes _, nothing.decode?_text⟩
  have huntouched : (Snapshot.text untouched.text).Writes (.obj r) :=
    ⟨_, .text _, untouched.decode?_text⟩
  have htouched : (Snapshot.text touched.text).Writes (.obj [("l", .null)]) :=
    ⟨_, .text _, touched.decode?_text⟩
  have hr : Record.Untouched t r := by decide +kernel
  obtain ⟨hreading, hrules, -, hcommand, hshape⟩ := device_agrees_with_object
  have hobject : (object.print (.text touched.text)).1
      = .normalized (Json.pretty (.obj [("l", .null)])) := by
    rw [(prints_object_of_writes htouched).print_eq]
  have hdevice : ((device t).print (.text touched.text)).1
      = .passthrough touched.text (.unexpectedShape "l" (.notAContainer .plain)) := by
    rw [print, attempt, Snapshot.asText]
    dsimp only
    rw [Record.normalize_of_decode (Record.decode_eq_ok_iff.mpr touched.decode?_text)]
    rfl
  obtain ⟨v, hv, -, hkind, -⟩ := hshape t _ _ _ _ hobject hdevice
  have hempty : (object.print (.bytes [])).1 = .passthrough "" .undecodable := by
    rw [(object.failsWith_of_isEmpty rfl).print_eq]
    rfl
  refine ⟨hr, (hrules t _ r huntouched hr).1, hobject, hdevice, ⟨v, hv, ?_⟩, hempty,
    ((hreading t _ _ _).mp hempty).2, ?_⟩
  · by_contra hnot
    cases (hkind v.kind).mpr ⟨rfl, hnot⟩
  · intro b
    obtain ⟨t, htable⟩ := b.exists_table
    apply hcommand b t _ _ _ [] htable .stdin hnothing
    intro key hkey
    cases hkey

end Printer

end DeviceSnapshot
