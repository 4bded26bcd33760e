import DeviceSnapshot.Log
import DeviceSnapshot.Pattern.Basic

/-!
# Which log lines are shown

A filter is written as directives with commas between them and, after a slash, a pattern that the
message must match. A directive is a level for everything, the beginning of an origin's name, or
both with an equals sign between them. The directive with the longest name decides about a line, so
one without a name is asked last. A directive that cannot be read is left out, and so is a pattern;
a text with more than one slash says nothing at all. Where no directive is left, only errors are
shown.
-/

namespace DeviceSnapshot

/-- A bound on the lines of some origins; no level shows nothing. -/
structure Directive where
  target : Option (List Char)
  level : Option LogLevel
  deriving DecidableEq

/-- A choice of log lines. -/
structure LogFilter where
  directives : List Directive
  message : Option Pattern

/-- The pieces of a text between separators; there is always at least one. -/
def splitChars (separator : Char) : List Char → List (List Char)
  | [] => [[]]
  | c :: cs =>
    match splitChars separator cs with
    | [] => [[c]]
    | piece :: pieces =>
      if c = separator then [] :: piece :: pieces else (c :: piece) :: pieces

def trimBlanks (cs : List Char) : List Char :=
  ((cs.dropWhile isBlank).reverse.dropWhile isBlank).reverse

namespace LogFilter

/-- The bound with a name, in any case; the outer `none` says that there is none. -/
def level? (cs : List Char) : Option (Option LogLevel) :=
  let name := cs.map Char.toUpper
  if name = "OFF".toList then some none
  else (LogLevel.all.find? fun l ↦ l.name.toList = name).map some

/-- One directive, or nothing when it is empty or cannot be read. -/
def directive? (cs : List Char) : Option Directive :=
  if cs = [] then none
  else
    match splitChars '=' cs with
    | [name] =>
      match level? name with
      | some level => some ⟨none, level⟩
      | none => some ⟨some name, some .trace⟩
    | [name, level] =>
      let level := trimBlanks level
      if level = [] then some ⟨some name, some .trace⟩
      else (level? level).map fun level ↦ ⟨some name, level⟩
    | _ => none

/-- Add a directive in place of one with the same name. -/
def add (ds : List Directive) (d : Directive) : List Directive :=
  if ds.any (·.target = d.target) then ds.map fun d' ↦ if d'.target = d.target then d else d'
  else ds ++ [d]

/-- The filter that a text writes. -/
def ofText (text : String) : LogFilter :=
  let (directives, message) :=
    match splitChars '/' text.toList with
    | [list] => (list, none)
    | [list, message] => (list, Pattern.ofText? (String.ofList message))
    | _ => ([], none)
  let ds := ((splitChars ',' directives).filterMap fun d ↦ directive? (trimBlanks d)).foldl add []
  ⟨if ds = [] then [⟨none, some .error⟩] else ds, message⟩

/-- The length of the name of a directive. -/
def nameLength (d : Directive) : Nat := (d.target.getD []).foldl (fun n c ↦ n + c.utf8Size) 0

/-- Whether a directive is about an origin. -/
def concerns (origin : LogOrigin) (d : Directive) : Bool :=
  match d.target with
  | none => true
  | some name => name.isPrefixOf origin.name.toList

/-- The directive that decides about an origin: among those about it the one with the longest name,
of two equally long ones the later. -/
def deciding (f : LogFilter) (origin : LogOrigin) : Option Directive :=
  (f.directives.filter (concerns origin)).foldl (fun best d ↦
    match best with
    | none => some d
    | some b => if nameLength b ≤ nameLength d then some d else some b) none

def shows (f : LogFilter) (line : LogLine) : Bool :=
  (match (f.deciding line.origin).bind (·.level) with
    | none => false
    | some level => line.level.rank ≤ level.rank) &&
  (match f.message with
    | none => true
    | some p => p.isMatch line.message)

end LogFilter

end DeviceSnapshot
