import DeviceSnapshot.Table.Builtin

/-!
# Command-line arguments

The program has the commands `print`, which takes a file and chooses a rule table, and `rules`,
which shows one built-in table or checks all. Arguments are read from left to right. Asking for
help or for the version ends reading at once, and so does the first argument that does not belong
where it stands. Whether options exclude each other is only asked at the end.
-/

namespace DeviceSnapshot

/-- How a snapshot is to be printed. -/
inductive PrintMode where
  | rules (table : Builtin)
  | noRules
  deriving DecidableEq

inductive Command where
  /-- Print a file, or standard input where none is named. -/
  | print (file : Option String) (mode : PrintMode)
  | showRules (table : Builtin)
  | validateRules
  deriving DecidableEq

/-- What arguments ask for. -/
inductive Request where
  | run (c : Command)
  | help
  | version
  | usageError
  deriving DecidableEq

namespace Request

/-- An argument, seen as an option or not. -/
inductive Shape where
  /-- The mark after which no argument is an option. -/
  | escape
  /-- An option with a long name and the value attached to it by an equals sign. -/
  | long (name : List Char) (value : Option (List Char))
  /-- An option with a short name, and perhaps more characters behind it. -/
  | short (name : Char)
  | plain

/-- Cut a text at its first equals sign. -/
def splitEquals (cs : List Char) : List Char × Option (List Char) :=
  let name := cs.takeWhile (· != '=')
  match cs.drop name.length with
  | [] => (name, none)
  | _ :: value => (name, some value)

/-- The shape of an argument. A single hyphen is not an option. -/
def shape (arg : String) : Shape :=
  match arg.toList with
  | ['-', '-'] => .escape
  | '-' :: '-' :: cs => .long (splitEquals cs).1 (splitEquals cs).2
  | '-' :: c :: _ => .short c
  | _ => .plain

/-- An option that asks for help, or none that is known. -/
def ofShape : Shape → Request
  | .long name none => if name = "help".toList then .help else .usageError
  | .short c => if c = 'h' then .help else .usageError
  | _ => .usageError

/-! ## The options of a command -/

/-- The options and operands of a command read so far. -/
structure Options where
  file : Option String := none
  table : Option Builtin := none
  noRules : Bool := false

/-- What a command takes. -/
structure Takes where
  file : Bool
  table : Bool
  noRules : Bool

/-- Take one operand; there is at most one, and it is not empty. -/
def operand? (takes : Takes) (o : Options) (arg : String) : Option Options :=
  if takes.file ∧ o.file = none ∧ arg ≠ "" then some { o with file := some arg } else none

/-- Set the table, once, by the name of a built-in table. -/
def table? (takes : Takes) (o : Options) (name : String) : Option Options :=
  if takes.table ∧ o.table = none then
    (Builtin.ofName? name).map fun b ↦ { o with table := some b }
  else none

/-- Read the arguments of a command, and finish with what they make of it. -/
def options (takes : Takes) (finish : Options → Request) (escaped : Bool) (o : Options) :
    List String → Request
  | [] => finish o
  | arg :: args =>
    if escaped then
      match operand? takes o arg with
      | some o => options takes finish true o args
      | none => .usageError
    else
      match shape arg with
      | .escape => options takes finish true o args
      | .plain =>
        match operand? takes o arg with
        | some o => options takes finish false o args
        | none => .usageError
      | .long name value =>
        if name = "table".toList then
          match value, args with
          | some v, args =>
            match table? takes o (String.ofList v) with
            | some o => options takes finish false o args
            | none => .usageError
          | none, v :: args =>
            match table? takes o v with
            | some o => options takes finish false o args
            | none => .usageError
          | none, [] => .usageError
        else if name = "no-rules".toList ∧ value = none ∧ takes.noRules ∧ ¬o.noRules then
          options takes finish false { o with noRules := true } args
        else ofShape (.long name value)
      | s => ofShape s

/-- The command `print`; a table and the absence of rules exclude each other. -/
def print (args : List String) : Request :=
  options ⟨true, true, true⟩ (fun o ↦
    match o.noRules, o.table with
    | true, some _ => .usageError
    | true, none => .run (.print o.file .noRules)
    | false, table => .run (.print o.file (.rules (table.getD .udev)))) false {} args

/-! ## Commands with commands below them -/

/-- Help about a path of commands; each command with commands below it has `help` among them. -/
def helpAbout (path : List String) : Request :=
  if path ∈ [[], ["print"], ["rules"], ["help"], ["rules", "show"], ["rules", "validate"],
      ["rules", "help"]] then .help
  else .usageError

def rules : List String → Request
  | "show" :: args =>
    options ⟨false, true, false⟩ (fun o ↦ .run (.showRules (o.table.getD .udev))) false {} args
  | "validate" :: args => options ⟨false, false, false⟩ (fun _ ↦ .run .validateRules) false {} args
  | "help" :: path => helpAbout ("rules" :: path)
  | arg :: _ => ofShape (shape arg)
  | [] => .usageError

/-- What the arguments of the program ask for. -/
def ofArgs : List String → Request
  | "print" :: args => print args
  | "rules" :: args => rules args
  | "help" :: path => helpAbout path
  | arg :: _ =>
    match shape arg with
    | .long name none => if name = "version".toList then .version else ofShape (.long name none)
    | .short c => if c = 'V' then .version else ofShape (.short c)
    | s => ofShape s
  | [] => .usageError

end Request

end DeviceSnapshot
