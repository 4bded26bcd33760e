import DeviceSnapshot.CommandLine.Arguments
import DeviceSnapshot.CommandLine.LogFilter
import DeviceSnapshot.Printer

/-!
# Running commands

A command is a function of what the program can read: standard input, files, and the choice of log
lines in its environment. Printing a snapshot always succeeds; only a file that cannot be read ends
with an error.
-/

namespace DeviceSnapshot

/-- What the program can read. -/
structure Environment where
  stdin : List UInt8
  /-- The bytes of a file, or nothing when it cannot be read. -/
  file? : String → Option (List UInt8)
  /-- The text that chooses log lines, when there is one. -/
  logFilter : Option String

/-- What a run of the program leaves behind. -/
structure Outcome where
  exitCode : UInt8
  stdout : String
  log : List LogLine
  /-- The error that ended the run. -/
  error : Option String

namespace Outcome

def success (stdout : String) (log : List LogLine) : Outcome := ⟨0, stdout, log, none⟩

/-- A run that ends with an error. -/
def failure (error : String) : Outcome := ⟨1, "", [], some error⟩

/-- A run that was not asked for in the right way. -/
def usageError : Outcome := ⟨2, "", [], none⟩

end Outcome

namespace Command

def programVersion : String := "devsnap 0.1.0"

def printer : PrintMode → Except TableFault Printer
  | .rules b => b.table.map .device
  | .noRules => .ok .object

/-- The error that a built-in table cannot be used. -/
def tableError : PrintMode → String
  | .rules b => "Failed to load rule table: " ++ b.name
  | .noRules => ""

/-- What the command `print` reads. -/
def input (env : Environment) : Option String → Except String (List UInt8)
  | none => .ok env.stdin
  | some file =>
    match env.file? file with
    | some bytes => .ok bytes
    | none => .error ("Failed to read " ++ file)

def filter (env : Environment) : LogFilter := LogFilter.ofText (env.logFilter.getD "warn")

def runPrint (env : Environment) (file : Option String) (mode : PrintMode) : Outcome :=
  match input env file with
  | .error e => .failure e
  | .ok bytes =>
    match printer mode with
    | .error _ => .failure (tableError mode)
    | .ok p =>
      let (text, log) := p.render (.bytes bytes)
      .success (text ++ "\n") (log.filter (filter env).shows)

/-! ## Listings -/

/-- The lines about a rule at a position, counted from one. -/
def ruleLines (position : Nat) (r : Rule) : List String :=
  ["  Rule " ++ toString position ++ ":",
    "    key_pattern: " ++ r.keyPattern.source,
    "    canonical_key: " ++ r.canonicalKey] ++
  r.actions.map (fun a ↦ "    action: " ++ a.describe) ++ [""]

/-- The lines about rules whose positions count on from the given one. -/
def rulesLines (position : Nat) : List Rule → List String
  | [] => []
  | r :: rs => ruleLines position r ++ rulesLines (position + 1) rs

/-- The lines about a table. -/
def tableLines (t : Table) : List String :=
  ["# table: " ++ t.name,
    "# encoding: " ++ t.layout.encoding.name,
    "# fields: paths=" ++ t.layout.fields.paths ++ " devpath=" ++ t.layout.fields.devpath ++
      " dm_uuid=" ++ t.layout.fields.dmUuid,
    "# rules: " ++ toString t.rules.length,
    ""] ++ rulesLines 1 t.rules

/-- Lines as text, each with its end. -/
def unlines (lines : List String) : String := String.join (lines.map (· ++ "\n"))

def runShow (b : Builtin) : Outcome :=
  match b.table with
  | .ok t => .success (unlines (tableLines t)) []
  | .error _ => .failure (tableError (.rules b))

/-- The line about a table that can be used. -/
def validLine? (b : Builtin) : Option String :=
  match b.table with
  | .ok t => some ("  " ++ t.name ++ " (" ++ toString t.rules.length ++ " rules)")
  | .error _ => none

def runValidate : Outcome :=
  let lines := Builtin.all.filterMap validLine?
  if lines.length = Builtin.all.length then
    .success (unlines (lines ++ ["All rule tables are valid"])) []
  else ⟨1, unlines lines, [], none⟩

def run (env : Environment) : Command → Outcome
  | .print file mode => runPrint env file mode
  | .showRules b => runShow b
  | .validateRules => runValidate

end Command

/-- Answer a request. The text of the help is left to the caller. -/
def Request.answer (env : Environment) (help : String) : Request → Outcome
  | .run c => c.run env
  | .help => .success help []
  | .version => .success (Command.programVersion ++ "\n") []
  | .usageError => .usageError

end DeviceSnapshot
