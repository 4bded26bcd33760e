import DeviceSnapshot.CommandLine.Run
import DeviceSnapshot.Proofs.Printing.Handling
import DeviceSnapshot.Proofs.Printing.Reprinting

/-!
# Printing from the command line

The command `print` reads a snapshot as bytes, asks the chosen printer whether it handles them, and
writes the text. It ends well whatever the bytes are, and what it writes is what the printer returns
(`Command.runPrint_eq`). The question in between shows only in the log, and there only for empty
input, for which nothing is reported.

## The log

Applying rules reports at the level `debug`, and returning a snapshot unchanged at the level `warn`.
Where nothing chooses log lines, those from `warn` up are shown, so of the lines of a printer at
most the last one is.
-/

namespace DeviceSnapshot

/-! ## Arguments -/

/-- The arguments that choose a mode. -/
def PrintMode.args : PrintMode → List String
  | .rules b => ["--table", b.name]
  | .noRules => ["--no-rules"]

namespace Request

variable {takes : Takes} {finish : Options → Request} {o : Options} {args : List String}
  {name : String}

/-- Arguments that ask for printing in a mode, of standard input or of a file. A name that looks
like an option goes behind the mark that ends the options. -/
inductive Asks (mode : PrintMode) : Option String → List String → Prop
  | stdin : Asks mode none ("print" :: mode.args)
  | operand {name : String} (hname : name ≠ "") (hshape : shape name = .plain) :
    Asks mode (some name) ("print" :: name :: mode.args)
  | escaped {name : String} (hname : name ≠ "") :
    Asks mode (some name) ("print" :: (mode.args ++ ["--", name]))

def Options.choose (o : Options) : PrintMode → Options
  | .rules b => { o with table := some b }
  | .noRules => { o with noRules := true }

theorem options_table (htakes : takes.table = true) (ho : o.table = none) (b : Builtin) :
    options takes finish false o ("--table" :: b.name :: args)
      = options takes finish false { o with table := some b } args := by
  have hshape : shape "--table" = .long "table".toList none := rfl
  have htable : table? takes o b.name = some { o with table := some b } := by
    rw [table?, if_pos ⟨htakes, ho⟩]
    cases b <;> rfl
  rw [options, if_neg Bool.false_ne_true, hshape]
  dsimp only
  rw [if_pos rfl, htable]

theorem options_noRules (htakes : takes.noRules = true) (ho : o.noRules = false) :
    options takes finish false o ("--no-rules" :: args)
      = options takes finish false { o with noRules := true } args := by
  have hshape : shape "--no-rules" = .long "no-rules".toList none := rfl
  have hname : "no-rules".toList ≠ "table".toList := by decide
  rw [options, if_neg Bool.false_ne_true, hshape]
  dsimp only
  rw [if_neg hname, if_pos (by simp [htakes, ho])]

theorem options_modeArgs (htakes : takes.table = true ∧ takes.noRules = true)
    (ho : o.table = none ∧ o.noRules = false) (mode : PrintMode) (args : List String) :
    options takes finish false o (mode.args ++ args)
      = options takes finish false (o.choose mode) args := by
  rcases mode with b | _
  · exact options_table htakes.1 ho.1 b
  · exact options_noRules htakes.2 ho.2

theorem options_operand (htakes : takes.file = true) (ho : o.file = none) (hname : name ≠ "")
    (hshape : shape name = .plain) : options takes finish false o (name :: args)
      = options takes finish false { o with file := some name } args := by
  rw [options, if_neg Bool.false_ne_true, hshape]
  dsimp only
  rw [operand?, if_pos ⟨htakes, ho, hname⟩]

theorem options_escaped (htakes : takes.file = true) (ho : o.file = none) (hname : name ≠ "") :
    options takes finish false o ["--", name] = finish { o with file := some name } := by
  have hshape : shape "--" = .escape := rfl
  rw [options, if_neg Bool.false_ne_true, hshape]
  dsimp only
  rw [options, if_pos rfl, operand?, if_pos ⟨htakes, ho, hname⟩]
  dsimp only
  rw [options]

/-- **Arguments that ask for printing are read so.** -/
theorem Asks.ofArgs_eq {mode : PrintMode} {file : Option String} (h : Asks mode file args) :
    ofArgs args = .run (.print file mode) := by
  have hnil : ∀ (o : Options) finish, options ⟨true, true, true⟩ finish false o mode.args
      = options ⟨true, true, true⟩ finish false o (mode.args ++ []) := by
    intro o finish
    rw [List.append_nil]
  rcases h with _ | ⟨hname, hshape⟩ | hname
  · rw [ofArgs, print, hnil, options_modeArgs ⟨rfl, rfl⟩ ⟨rfl, rfl⟩, options]
    cases mode <;> rfl
  · rw [ofArgs, print, options_operand rfl rfl hname hshape, hnil,
      options_modeArgs ⟨rfl, rfl⟩ ⟨rfl, rfl⟩, options]
    cases mode <;> rfl
  · have hfile : ∀ o : Options, o.file = none → (o.choose mode).file = none := by
      intro o ho
      cases mode <;> exact ho
    rw [ofArgs, print, options_modeArgs ⟨rfl, rfl⟩ ⟨rfl, rfl⟩,
      options_escaped rfl (hfile _ rfl) hname]
    cases mode <;> rfl

end Request

/-! ## The log of a printer -/

namespace Printer

variable {p : Printer} {s : Snapshot} {t : Table} {keys : List String} {out : String}
  {cause : SnapshotFault} {log : List LogLine}

theorem level_of_mem_filterMap_report {line : LogLine} (h : line ∈ keys.filterMap t.report) :
    line.level = .debug := by
  obtain ⟨key, -, hline⟩ := List.mem_filterMap.mp h
  obtain ⟨rule, -, rfl⟩ := Option.map_eq_some_iff.mp hline
  rfl

theorem Prints.level_eq (h : p.Prints s out log) : ∀ line ∈ log, line.level = .debug := by
  intro line hline
  rcases h with ⟨-, -⟩ | ⟨-, -, -, -⟩
  · cases hline
  · exact level_of_mem_filterMap_report hline

theorem FailsWith.level_eq (h : p.FailsWith s cause log) : ∀ line ∈ log, line.level = .debug := by
  intro line hline
  rcases h with ⟨-, -⟩ | ⟨-, -⟩ | ⟨-, -, -⟩ | ⟨-, -, -⟩
  · cases hline
  · cases hline
  · cases hline
  · exact level_of_mem_filterMap_report hline

theorem test_bytes (p : Printer) (bs : List UInt8) : p.test (.bytes bs) = !bs.isEmpty := by
  cases p <;> rfl

theorem test_object_eq_false_iff : object.test s = false ↔ s = .text "" ∨ s = .bytes [] := by
  rw [← Snapshot.isEmpty_iff, test]
  simp

end Printer

namespace Command

variable {env : Environment} {file : Option String} {bytes : List UInt8} {p : Printer}
  {log : List LogLine} {mode : PrintMode}

/-- The command reads these bytes: from standard input, or from a file that can be read. -/
inductive Reads (env : Environment) : Option String → List UInt8 → Prop
  | stdin : Reads env none env.stdin
  | file {name : String} {bytes : List UInt8} (h : env.file? name = some bytes) :
    Reads env (some name) bytes

theorem Reads.input_eq (h : Reads env file bytes) : input env file = .ok bytes := by
  rcases h with _ | h
  · rfl
  · rw [input, h]

/-! ## What is shown -/

theorem shows_of_logFilter_eq_none (h : env.logFilter = none) (line : LogLine) :
    (filter env).shows line = decide (line.level.rank ≤ LogLevel.warn.rank) := by
  have hdirectives : (LogFilter.ofText "warn").directives = [⟨none, some .warn⟩] := by
    decide +kernel
  have hmessage : (LogFilter.ofText "warn").message = none :=
    Option.isNone_iff_eq_none.mp (by decide +kernel)
  have hdeciding : ∀ origin,
      (LogFilter.ofText "warn").deciding origin = some ⟨none, some .warn⟩ := by
    intro origin
    rw [LogFilter.deciding, hdirectives]
    rfl
  rw [filter, h, Option.getD_none, LogFilter.shows, hdeciding, hmessage, Bool.and_true]
  rfl

theorem filter_shows_of_debug (h : env.logFilter = none)
    (hlog : ∀ line ∈ log, line.level = .debug) : log.filter (filter env).shows = [] := by
  rw [List.filter_eq_nil_iff]
  intro line hline
  rw [shows_of_logFilter_eq_none h, hlog line hline]
  decide

theorem shows_unchanged (h : env.logFilter = none) (p : Printer) (cause : SnapshotFault) :
    (filter env).shows (p.unchanged cause) = true := by
  rw [shows_of_logFilter_eq_none h]
  rfl

/-- The lines that are shown about bytes: the warning, if there are bytes that are returned
unchanged. -/
def shown (p : Printer) (bytes : List UInt8) : List LogLine :=
  match (p.print (.bytes bytes)).1 with
  | .normalized _ => []
  | .passthrough _ cause => if bytes = [] then [] else [p.unchanged cause]

theorem filter_render (h : env.logFilter = none) (p : Printer) (bytes : List UInt8) :
    (p.render (.bytes bytes)).2.filter (filter env).shows = shown p bytes := by
  by_cases hbytes : bytes = []
  · subst hbytes
    have hempty := p.failsWith_of_isEmpty (s := .bytes []) rfl
    rw [shown, hempty.print_eq, Printer.render, Printer.test_bytes]
    rfl
  · have htest : p.test (.bytes bytes) = true := by
      rw [Printer.test_bytes, List.isEmpty_eq_false_iff.mpr hbytes]
      rfl
    rw [Printer.render, if_pos htest, shown]
    rcases p.exists_prints_or_failsWith (.bytes bytes) with
      ⟨out, log, hprints⟩ | ⟨cause, log, hfails⟩
    · rw [hprints.print_eq]
      exact filter_shows_of_debug h hprints.level_eq
    · rw [hfails.print_eq]
      dsimp only
      rw [List.filter_append, filter_shows_of_debug h hfails.level_eq, List.nil_append,
        List.filter_singleton, shows_unchanged h, if_neg hbytes]
      rfl

/-! ## The command -/

/-- **Printing ends well.** What is written is what the printer returns. -/
theorem runPrint_eq (hp : printer mode = .ok p) (hreads : Reads env file bytes) :
    runPrint env file mode = ⟨0, (p.print (.bytes bytes)).1.text ++ "\n",
      (p.render (.bytes bytes)).2.filter (filter env).shows, none⟩ := by
  rw [runPrint, hreads.input_eq]
  dsimp only
  rw [hp, ← Printer.render_fst]
  rfl

/-- **Asking, printing and the command agree.** A printer with rules handles a text if it prints it
or finds an entry that cannot be amended, and it handles all bytes; without rules everything is
handled. Of either kind what is empty is not handled, and it is returned as it is. So asking first
does not change a text. The arguments of the command reach the printer of each mode, and whatever is
read, the command ends well with the text of this printer on a line, and shows one warning if
something that is not empty is returned unchanged. -/
theorem print_agrees_with_test :
    (∀ (t : Table) (text : String),
      ((Printer.device t).test (.text text) = true ↔
        (∃ out, ((Printer.device t).print (.text text)).1 = .normalized out) ∨
        ∃ key cause, ((Printer.device t).print (.text text)).1
          = .passthrough text (.unexpectedShape key cause)) ∧
      ((Printer.device t).test (.text text) = false ↔
        ((Printer.device t).print (.text text)).1 = .passthrough text .undecodable ∨
        ∃ kind, ((Printer.device t).print (.text text)).1 = .passthrough text (.notARecord kind))) ∧
    (∀ (t : Table) (bs : List UInt8), (Printer.device t).test (.bytes bs) = false ↔ bs = []) ∧
    (∀ s : Snapshot, Printer.object.test s = false ↔ s = .text "" ∨ s = .bytes []) ∧
    (∀ p : Printer, (p.print (.text "")).1 = .passthrough "" .undecodable ∧
      (p.print (.bytes [])).1 = .passthrough "" .undecodable) ∧
    (∀ (p : Printer) (s : Snapshot), (p.render s).1 = (p.print s).1.text) ∧
    (∀ (mode : PrintMode) (file : Option String) (args : List String),
      Request.Asks mode file args → Request.ofArgs args = .run (.print file mode)) ∧
    ∀ mode : PrintMode, ∃ p, printer mode = .ok p ∧
      ∀ (env : Environment) (file : Option String) (bytes : List UInt8) (args : List String)
        (help : String), Request.ofArgs args = .run (.print file mode) → Reads env file bytes →
        ∃ log, (Request.ofArgs args).answer env help
            = ⟨0, (p.print (.bytes bytes)).1.text ++ "\n", log, none⟩ ∧
          (env.logFilter = none →
            (∀ text cause, bytes ≠ [] → (p.print (.bytes bytes)).1 = .passthrough text cause →
              log = [⟨.warn, .printing,
                p.name ++ ": returning snapshot unchanged: " ++ cause.message⟩]) ∧
            ((bytes = [] ∨ ∃ out, (p.print (.bytes bytes)).1 = .normalized out) → log = [])) := by
  have hempty : ∀ (p : Printer) {s : Snapshot}, s = .text "" ∨ s = .bytes [] →
      (p.print s).1 = .passthrough "" .undecodable := by
    intro p s hs
    have hs := Snapshot.isEmpty_iff.mpr hs
    rw [(p.failsWith_of_isEmpty hs).print_eq,
      Snapshot.lossyText_of_holds (Snapshot.holds_of_isEmpty hs)]
  refine ⟨Printer.test_text_iff_print, ?_, ?_, ?_, Printer.render_fst,
    fun mode file args ↦ Request.Asks.ofArgs_eq, ?_⟩
  · intro t bs
    simp [Printer.test_bytes]
  · intro s
    exact Printer.test_object_eq_false_iff
  · intro p
    exact ⟨hempty p (.inl rfl), hempty p (.inr rfl)⟩
  · intro mode
    obtain ⟨p, hp, -⟩ := Printer.exists_stable_printer mode
    refine ⟨p, hp, ?_⟩
    intro env file bytes args help hargs hreads
    refine ⟨(p.render (.bytes bytes)).2.filter (filter env).shows, ?_, ?_⟩
    · rw [hargs]
      exact runPrint_eq hp hreads
    · intro henv
      rw [filter_render henv, shown]
      constructor
      · intro text cause hbytes hprint
        rw [hprint]
        exact if_neg hbytes
      · rintro (rfl | ⟨out, hprint⟩)
        · rw [hempty p (.inr rfl)]
          exact if_pos rfl
        · rw [hprint]

/-- A file whose name looks like an option, with one byte too many. It is written with the
replacement character, and one warning is shown. -/
theorem print_warns_about_byte :
    let args := ["print", "--no-rules", "--", "-n"]
    let bytes : List UInt8 := [0x6e, 0xff]
    let env : Environment := ⟨[], fun name ↦ if name = "-n" then some bytes else none, none⟩
    Request.Asks .noRules (some "-n") args ∧ Reads env (some "-n") bytes ∧
      (Printer.object.print (.bytes bytes)).1
        = .passthrough "n\ufffd" (.notUtf8 (.invalid 1 1)) ∧
      (Request.ofArgs args).answer env "" = ⟨0, "n\ufffd\n", [⟨.warn, .printing,
        "object: returning snapshot unchanged: Snapshot is not valid UTF-8"⟩], none⟩ := by
  intro args bytes env
  have hasks : Request.Asks .noRules (some "-n") args := .escaped (by decide)
  have hreads : Reads env (some "-n") bytes := .file rfl
  have hprint : (Printer.object.print (.bytes bytes)).1
      = .passthrough "n\ufffd" (.notUtf8 (.invalid 1 1)) := rfl
  obtain ⟨-, -, -, -, -, hofArgs, hanswers⟩ := print_agrees_with_test
  obtain ⟨p, hp, hanswer⟩ := hanswers .noRules
  obtain rfl : Printer.object = p := Except.ok.inj hp
  obtain ⟨log, hanswer, hlog⟩ := hanswer env _ bytes args "" (hofArgs _ _ _ hasks) hreads
  have hwarns := (hlog rfl).1 _ _ (List.cons_ne_nil _ _) hprint
  refine ⟨hasks, hreads, hprint, ?_⟩
  rw [hanswer, hprint, hwarns]
  rfl

end Command

end DeviceSnapshot
