import DeviceSnapshot.Printer
import DeviceSnapshot.Proofs.Record.RoundTrip
import DeviceSnapshot.Proofs.Utf8

/-!
# All or nothing

Printing goes through stages: the snapshot is a text, the text is one of a JSON value, the value is
a record, and every entry that a rule matches can be amended. Either all of them succeed and the
whole result is printed, or the first that fails is the cause and the whole snapshot is returned. No
outcome lies between, however many entries were amended before one that cannot be.

What each stage asks for is said without the program: a snapshot holds a text when it is this text
or its encoding (`Snapshot.Holds`), and the first fault of a record is the one whose key comes first
in the order of bytes (`Record.FirstFault`). From these `Printer.Prints` and `Printer.FailsWith` are
read off, one case per way to end, and printing is shown to follow them.
-/

namespace DeviceSnapshot

theorem Json.kind_eq_object_iff {v : Json} : v.kind = .object ↔ ∃ members, v = .obj members := by
  cases v <;> simp [kind]

/-! ## The text of a snapshot -/

namespace Snapshot

variable {s : Snapshot} {text : String} {cause : SnapshotFault}

/-- A snapshot is a text, or the bytes of its encoding. -/
inductive Holds : Snapshot → String → Prop
  | text (s : String) : Holds (.text s) s
  | bytes (s : String) : Holds (.bytes (Utf8.bytes s)) s

/-- A text that stands for a snapshot as a whole: the text that it holds, or its bytes with every
fault replaced when it holds none. -/
inductive Original : Snapshot → String → Prop
  | held {s : Snapshot} {text : String} (h : s.Holds text) : Original s text
  | replaced {bs : List UInt8} (h : ∀ text, ¬Holds (.bytes bs) text) :
    Original (.bytes bs) (Utf8.decodeLossy bs)

theorem holds_bytes_iff {bs : List UInt8} : Holds (.bytes bs) text ↔ bs = Utf8.bytes text := by
  constructor
  · intro h
    cases h
    rfl
  · rintro rfl
    exact .bytes text

theorem asText_eq_ok_iff : s.asText = .ok text ↔ s.Holds text := by
  cases s with
  | text s =>
    rw [asText, Except.ok.injEq]
    constructor
    · rintro rfl
      exact .text s
    · rintro ⟨⟩
      rfl
  | bytes bs =>
    rw [holds_bytes_iff, ← Utf8.decode_eq_ok_iff, asText, mapError_eq_ok_iff]

theorem asText_eq_error_iff : s.asText = .error cause ↔
    ∃ bs fault, s = .bytes bs ∧ Utf8.decode bs = .error fault ∧ cause = .notUtf8 fault := by
  cases s with
  | text s => simp [asText]
  | bytes bs =>
    rw [asText, mapError_eq_error_iff]
    constructor
    · rintro ⟨fault, hfault, rfl⟩
      exact ⟨bs, fault, rfl, hfault, rfl⟩
    · rintro ⟨_, fault, hbs, hfault, rfl⟩
      exact ⟨fault, Snapshot.bytes.inj hbs ▸ hfault, rfl⟩

theorem lossyText_of_holds (h : s.Holds text) : s.lossyText = text := by
  cases h with
  | text => rfl
  | bytes => exact Utf8.decodeLossy_bytes text

theorem original_iff : s.Original text ↔ text = s.lossyText := by
  constructor
  · intro h
    cases h with
    | held h => exact (lossyText_of_holds h).symm
    | replaced => rfl
  · rintro rfl
    by_cases h : ∃ text, s.Holds text
    · obtain ⟨text, h⟩ := h
      exact .held ((lossyText_of_holds h).symm ▸ h)
    · cases s with
      | text s => exact absurd ⟨s, .text s⟩ h
      | bytes bs => exact .replaced (not_exists.mp h)

end Snapshot

/-! ## The first fault of a record -/

namespace Record

variable {t : Table} {r : Record} {key : String} {cause : ShapeFault}

theorem ordered_of_decode? {text : String} (h : Json.decode? text = some (.obj r)) : r.Ordered :=
  (Json.fits_obj_iff.mp (Json.fits_of_decode? h)).2.1

/-- Every entry that a rule matches can be amended. -/
def Amendable (t : Table) (r : Record) : Prop :=
  ∀ key entry rule, Keyed.get? r key = some entry → t.rule? key = some rule →
    ∃ v, Action.applyAll t.layout rule.actions entry = .ok v

/-- Of the entries that a rule matches, the one under this key cannot be amended, and every one
whose key comes before it can. -/
structure FirstFault (t : Table) (r : Record) (key : String) (cause : ShapeFault) : Prop where
  fails : ∃ entry rule, Keyed.get? r key = some entry ∧ t.rule? key = some rule ∧
    Action.applyAll t.layout rule.actions entry = .error cause
  before : ∀ key' entry rule, Keyed.get? r key' = some entry → t.rule? key' = some rule →
    Utf8.Precedes key' key → ∃ v, Action.applyAll t.layout rule.actions entry = .ok v

theorem exists_outcome_iff {entry : Json} : (∃ v, t.outcome key entry = .ok v) ↔
    ∀ rule, t.rule? key = some rule → ∃ v, Action.applyAll t.layout rule.actions entry = .ok v := by
  cases hrule : t.rule? key with
  | none => simp [Table.outcome_of_rule?_none hrule]
  | some rule => simp [Table.outcome_eq_ok_iff_of_rule? hrule]

theorem amendable_iff (hr : r.Ordered) :
    Amendable t r ↔ ∀ e ∈ r, ∃ v, t.outcome e.1 e.2 = .ok v := by
  constructor
  · intro h e he
    exact exists_outcome_iff.mpr fun rule hrule ↦ h e.1 e.2 rule (Keyed.get?_of_mem hr he) hrule
  · intro h key entry rule hk hrule
    exact exists_outcome_iff.mp (h (key, entry) (Keyed.mem_of_get? hk)) rule hrule

theorem applyRules_of_amendable (hr : r.Ordered) (h : Amendable t r) :
    ∃ o, applyRules t r = (.ok o, r.keys.filterMap t.report) := by
  obtain ⟨o, ho, -⟩ := applyFrom_of_forall_ok (collected_nil t) hr ((amendable_iff hr).mp h)
  exact ⟨o, ho⟩

theorem applyRules_of_firstFault (hr : r.Ordered) (h : FirstFault t r key cause) :
    applyRules t r = (.error (.unexpectedShape key cause),
      (r.keys.filter fun k ↦ ¬Utf8.Precedes key k).filterMap t.report) := by
  obtain ⟨entry, rule, hk, hrule, hcause⟩ := h.fails
  obtain ⟨before, after, rfl⟩ := List.append_of_mem (Keyed.mem_of_get? hk)
  have hfault : t.outcome key entry = .error (.unexpectedShape key cause) :=
    Table.outcome_eq_error_iff.mpr ⟨rule, cause, hrule, hcause, rfl⟩
  have hok : ∀ e ∈ before, ∃ v, t.outcome e.1 e.2 = .ok v := by
    intro e he
    have hlt : e.1 < key := (Keyed.ordered_append_iff.mp hr).2.2 e.1 (List.mem_map_of_mem he) key
      List.mem_cons_self
    have hget := Keyed.get?_of_mem hr (List.mem_append_left ((key, entry) :: after) he)
    exact exists_outcome_iff.mpr fun rule hrule ↦
      h.before e.1 e.2 rule hget hrule (Utf8.lt_iff_precedes.mp hlt)
  rw [filter_not_precedes_eq hr]
  exact applyFrom_of_error hok hfault []

theorem amendable_or_exists_firstFault (t : Table) (hr : r.Ordered) :
    Amendable t r ∨ ∃ key cause, FirstFault t r key cause := by
  rcases forall_ok_or_exists_first_error t r with hok | ⟨before, key, entry, after, fault, rfl, hok,
    hfault⟩
  · exact .inl ((amendable_iff hr).mpr hok)
  · obtain ⟨rule, cause, hrule, hcause, -⟩ := Table.outcome_eq_error_iff.mp hfault
    have hk := Keyed.get?_of_mem hr (List.mem_append_right before List.mem_cons_self)
    refine .inr ⟨key, cause, ⟨entry, rule, hk, hrule, hcause⟩, ?_⟩
    intro key' entry' rule' hk' hrule' hprecedes
    have hmem := Keyed.mem_left_of_lt hr (Keyed.mem_of_get? hk')
      (Utf8.lt_iff_precedes.mpr hprecedes)
    exact exists_outcome_iff.mp (hok _ hmem) rule' hrule'

end Record

/-! ## The ways to end -/

namespace Printer

variable {p : Printer} {s : Snapshot} {text out : String} {cause : SnapshotFault}
  {log : List LogLine}

/-- A snapshot that goes through all stages of a printer. -/
inductive Accepts : Printer → Snapshot → Prop
  | object {s : Snapshot} {text : String} {v : Json} (htext : s.Holds text)
    (hv : Json.decode? text = some v) : Accepts .object s
  | device {t : Table} {s : Snapshot} {text : String} {r : Record} (htext : s.Holds text)
    (hr : Json.decode? text = some (.obj r)) (hall : r.Amendable t) : Accepts (.device t) s

/-- What is printed for a snapshot that goes through all stages, and what is reported. -/
inductive Prints : Printer → Snapshot → String → List LogLine → Prop
  | object {s : Snapshot} {text : String} {v : Json} (htext : s.Holds text)
    (hv : Json.decode? text = some v) : Prints .object s v.pretty []
  | device {t : Table} {s : Snapshot} {text : String} {r o : Record} (htext : s.Holds text)
    (hr : Json.decode? text = some (.obj r)) (hall : r.Amendable t)
    (ho : (Record.applyRules t r).1 = .ok o) :
    Prints (.device t) s o.text (r.keys.filterMap t.report)

/-- The first stage that fails for a snapshot, as its cause, and what was reported by then. -/
inductive FailsWith : Printer → Snapshot → SnapshotFault → List LogLine → Prop
  | notUtf8 {p : Printer} {bs : List UInt8} {fault : Utf8.Fault}
    (htext : ∀ text, ¬Snapshot.Holds (.bytes bs) text) (hfault : Utf8.decode bs = .error fault) :
    FailsWith p (.bytes bs) (.notUtf8 fault) []
  | undecodable {p : Printer} {s : Snapshot} {text : String} (htext : s.Holds text)
    (hv : Json.decode? text = none) : FailsWith p s .undecodable []
  | notARecord {t : Table} {s : Snapshot} {text : String} {v : Json} (htext : s.Holds text)
    (hv : Json.decode? text = some v) (hkind : v.kind ≠ .object) :
    FailsWith (.device t) s (.notARecord v.kind) []
  | unexpectedShape {t : Table} {s : Snapshot} {text : String} {r : Record} {key : String}
    {cause : ShapeFault} (htext : s.Holds text) (hr : Json.decode? text = some (.obj r))
    (hfirst : r.FirstFault t key cause) :
    FailsWith (.device t) s (.unexpectedShape key cause)
      ((r.keys.filter fun k ↦ ¬Utf8.Precedes key k).filterMap t.report)

theorem Prints.accepts (h : p.Prints s out log) : p.Accepts s := by
  cases h with
  | object htext hv => exact .object htext hv
  | device htext hr hall _ => exact .device htext hr hall

/-! ## Printing follows them -/

theorem Prints.attempt_eq (h : p.Prints s out log) : p.attempt s = (.ok out, log) := by
  cases h with
  | object htext hv =>
    rw [attempt, Snapshot.asText_eq_ok_iff.mpr htext]
    dsimp only
    rw [Record.value, hv]
    rfl
  | device htext hr hall ho =>
    have hord := Record.ordered_of_decode? hr
    obtain ⟨o, hrun⟩ := Record.applyRules_of_amendable hord hall
    rw [hrun] at ho
    rw [attempt, Snapshot.asText_eq_ok_iff.mpr htext]
    dsimp only
    rw [Record.normalize_of_decode (Record.decode_eq_ok_iff.mpr hr), hrun, Except.ok.inj ho]
    rfl

theorem FailsWith.attempt_eq (h : p.FailsWith s cause log) : p.attempt s = (.error cause, log) := by
  cases h with
  | notUtf8 _ hfault =>
    have htext : Snapshot.asText (.bytes _) = .error (.notUtf8 _) :=
      Snapshot.asText_eq_error_iff.mpr ⟨_, _, rfl, hfault, rfl⟩
    rw [attempt, htext]
  | undecodable htext hv =>
    rw [attempt, Snapshot.asText_eq_ok_iff.mpr htext]
    cases p with
    | device t => simp [Record.normalize, Record.decode, Record.value, hv]
    | object => simp [Record.value, hv, Except.map]
  | @notARecord t s text v htext hv hkind =>
    have hdecode : Record.decode text = .error (.notARecord v.kind) := by
      rw [Record.decode, Record.value, hv]
      cases v <;> first | rfl | exact absurd rfl hkind
    rw [attempt, Snapshot.asText_eq_ok_iff.mpr htext]
    dsimp only
    rw [Record.normalize, hdecode]
  | unexpectedShape htext hr hfirst =>
    have hord := Record.ordered_of_decode? hr
    rw [attempt, Snapshot.asText_eq_ok_iff.mpr htext]
    dsimp only
    rw [Record.normalize_of_decode (Record.decode_eq_ok_iff.mpr hr),
      Record.applyRules_of_firstFault hord hfirst]
    rfl

theorem exists_prints_or_failsWith (p : Printer) (s : Snapshot) :
    (∃ out log, p.Prints s out log) ∨ ∃ cause log, p.FailsWith s cause log := by
  cases htext : s.asText with
  | error cause =>
    obtain ⟨bs, fault, rfl, hfault, rfl⟩ := Snapshot.asText_eq_error_iff.mp htext
    refine .inr ⟨_, _, .notUtf8 (fun text h ↦ ?_) hfault⟩
    rw [Snapshot.asText_eq_ok_iff.mpr h] at htext
    cases htext
  | ok text =>
    have hholds := Snapshot.asText_eq_ok_iff.mp htext
    cases hv : Json.decode? text with
    | none => exact .inr ⟨_, _, .undecodable hholds hv⟩
    | some v =>
      cases p with
      | object => exact .inl ⟨_, _, .object hholds hv⟩
      | device t =>
        by_cases hkind : v.kind = .object
        · obtain ⟨r, rfl⟩ := Json.kind_eq_object_iff.mp hkind
          have hord := Record.ordered_of_decode? hv
          rcases Record.amendable_or_exists_firstFault t hord with hall | ⟨key, cause, hfirst⟩
          · obtain ⟨o, ho⟩ := Record.applyRules_of_amendable hord hall
            exact .inl ⟨_, _, .device hholds hv hall (congrArg Prod.fst ho)⟩
          · exact .inr ⟨_, _, .unexpectedShape hholds hv hfirst⟩
        · exact .inr ⟨_, _, .notARecord hholds hv hkind⟩

theorem Accepts.exists_prints (h : p.Accepts s) : ∃ out log, p.Prints s out log := by
  cases h with
  | object htext hv => exact ⟨_, _, .object htext hv⟩
  | device htext hr hall =>
    have hord := Record.ordered_of_decode? hr
    obtain ⟨o, ho⟩ := Record.applyRules_of_amendable hord hall
    exact ⟨_, _, .device htext hr hall (congrArg Prod.fst ho)⟩

theorem Prints.print_eq (h : p.Prints s out log) : p.print s = (.normalized out, log) := by
  rw [print, h.attempt_eq]

theorem FailsWith.print_eq (h : p.FailsWith s cause log) :
    p.print s = (.passthrough s.lossyText cause, log ++ [p.unchanged cause]) := by
  rw [print, h.attempt_eq]

theorem Prints.not_failsWith {log' : List LogLine} (h : p.Prints s out log) :
    ¬p.FailsWith s cause log' := by
  intro hfails
  have hprint := h.print_eq
  rw [hfails.print_eq] at hprint
  cases hprint

theorem fst_print_eq_normalized_iff :
    (p.print s).1 = .normalized out ↔ ∃ log, p.Prints s out log := by
  constructor
  · intro h
    rcases p.exists_prints_or_failsWith s with ⟨out', log, hprints⟩ | ⟨cause, log, hfails⟩
    · rw [hprints.print_eq] at h
      cases h
      exact ⟨log, hprints⟩
    · rw [hfails.print_eq] at h
      cases h
  · rintro ⟨log, h⟩
    rw [h.print_eq]

theorem fst_print_eq_passthrough_iff : (p.print s).1 = .passthrough text cause ↔
    text = s.lossyText ∧ ∃ log, p.FailsWith s cause log := by
  constructor
  · intro h
    rcases p.exists_prints_or_failsWith s with ⟨out', log, hprints⟩ | ⟨cause', log, hfails⟩
    · rw [hprints.print_eq] at h
      cases h
    · rw [hfails.print_eq] at h
      cases h
      exact ⟨rfl, log, hfails⟩
  · rintro ⟨rfl, log, h⟩
    rw [h.print_eq]

/-- **All or nothing.** Printing gives text in normal form exactly for the snapshots that go through
all stages, and then it is the text of the whole result. In every other case the snapshot as a whole
is returned with the first stage that fails as the cause, and one warning is reported after what was
reported by then. -/
theorem print_all_or_nothing (p : Printer) (s : Snapshot) :
    ((∃ out log, p.print s = (.normalized out, log)) ↔ p.Accepts s) ∧
    (∀ out log, p.print s = (.normalized out, log) ↔ p.Prints s out log) ∧
    ∀ text cause log, p.print s = (.passthrough text cause, log) ↔
      s.Original text ∧ ∃ reported, p.FailsWith s cause reported ∧ log = reported ++
        [⟨.warn, .printing, p.name ++ ": returning snapshot unchanged: " ++ cause.message⟩] := by
  have hnormalized : ∀ out log, p.print s = (.normalized out, log) ↔ p.Prints s out log := by
    intro out log
    refine ⟨fun h ↦ ?_, Prints.print_eq⟩
    rcases exists_prints_or_failsWith p s with ⟨out', log', h'⟩ | ⟨cause, log', h'⟩
    · rw [h'.print_eq] at h
      cases h
      exact h'
    · rw [h'.print_eq] at h
      cases h
  refine ⟨⟨?_, ?_⟩, hnormalized, fun text cause log ↦ ⟨fun h ↦ ?_, ?_⟩⟩
  · rintro ⟨out, log, h⟩
    exact ((hnormalized out log).mp h).accepts
  · intro h
    obtain ⟨out, log, h⟩ := h.exists_prints
    exact ⟨out, log, h.print_eq⟩
  · rcases exists_prints_or_failsWith p s with ⟨out, log', h'⟩ | ⟨cause', reported, h'⟩
    · rw [h'.print_eq] at h
      cases h
    · rw [h'.print_eq] at h
      cases h
      exact ⟨Snapshot.original_iff.mpr rfl, reported, h', rfl⟩
  · rintro ⟨htext, reported, h, rfl⟩
    rw [h.print_eq, Snapshot.original_iff.mp htext]
    rfl

end Printer

end DeviceSnapshot
