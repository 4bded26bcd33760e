import DeviceSnapshot.Entry.Action
import DeviceSnapshot.Table.Builtin

/-!
# Rule tables ready for use

Compiling a table reads all of its patterns, rule by rule, the key pattern of a rule before those of
its actions. The first pattern that is refused is the fault of the table. The compiled table has the
same rules in the same order. What is a pattern is a matter of the reader that is given; the program
compiles its tables with its own.

A key belongs to the first rule whose pattern matches it.
-/

namespace DeviceSnapshot

/-- A rule with its patterns read. -/
structure Rule where
  keyPattern : Pattern
  canonicalKey : String
  actions : List Action

/-- A rule table with its patterns read. -/
structure Table where
  name : String
  layout : Layout
  rules : List Rule

/-! ## Compiling -/

def Pattern.compile (source : String) (read : PatternReader := Expr.reader) :
    Except TableFault Pattern :=
  match Pattern.ofText? source read with
  | some p => .ok p
  | none => .error (.badPattern source)

def SubstitutionSpec.compile (s : SubstitutionSpec) (read : PatternReader := Expr.reader) :
    Except TableFault Substitution := do
  let pattern ← Pattern.compile s.pattern read
  return { pattern, replacement := s.replacement }

def ActionSpec.compile (a : ActionSpec) (read : PatternReader := Expr.reader) :
    Except TableFault Action :=
  match a with
  | .paths subs => return .paths (← subs.mapM (·.compile read))
  | .devpath text => return .devpath text
  | .dmUuid text => return .dmUuid text

def RuleSpec.compile (r : RuleSpec) (read : PatternReader := Expr.reader) :
    Except TableFault Rule := do
  let keyPattern ← Pattern.compile r.keyPattern read
  let actions ← r.actions.mapM (·.compile read)
  return { keyPattern, canonicalKey := r.canonicalKey, actions }

/-- Read the patterns of a table. -/
def TableSpec.compile (t : TableSpec) (read : PatternReader := Expr.reader) :
    Except TableFault Table := do
  let rules ← t.rules.mapM (·.compile read)
  return { name := t.name, layout := { encoding := t.encoding, fields := t.fields }, rules }

/-- A built-in table, checked and compiled. -/
def Builtin.table (b : Builtin) : Except TableFault Table := do
  b.spec.validate
  b.spec.compile Expr.reader

/-! ## Finding the rule of a key -/

namespace Table

/-- The first rule that matches a key. -/
def rule? (t : Table) (key : String) : Option Rule := t.rules.find? (·.keyPattern.isMatch key)

end Table

end DeviceSnapshot
