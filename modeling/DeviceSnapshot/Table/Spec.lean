import DeviceSnapshot.Entry.Layout

/-!
# Rule tables as they are written

A table names itself, says how the entries of its snapshots store their fields, and lists rules. A
rule has a pattern for keys, the canonical key that a matching entry is stored under, and actions
that amend the entry. Patterns are still text here.

A table is valid when every canonical key is non-empty and no two rules declare the same one.
-/

namespace DeviceSnapshot

/-- A path pattern and the fixed path that replaces any match. -/
structure SubstitutionSpec where
  pattern : String
  replacement : String
  deriving DecidableEq

/-- A change of one field. -/
inductive ActionSpec where
  | paths (subs : List SubstitutionSpec)
  | devpath (text : String)
  | dmUuid (text : String)
  deriving DecidableEq

/-- A rule for the entries under matching keys. -/
structure RuleSpec where
  keyPattern : String
  canonicalKey : String
  actions : List ActionSpec := []
  deriving DecidableEq

/-- A rule table as it is written. -/
structure TableSpec where
  name : String
  encoding : Encoding := .plain
  fields : FieldNames := {}
  rules : List RuleSpec := []
  deriving DecidableEq

/-- Why a table cannot be used. -/
inductive TableFault where
  /-- The text under this label is not that of a table. -/
  | unreadable (label : String)
  | badPattern (pattern : String)
  /-- The rule at a position, counted from one. -/
  | emptyCanonicalKey (table : String) (position : Nat)
  | duplicateCanonicalKey (table key : String)
  deriving DecidableEq

def TableFault.message : TableFault → String
  | .unreadable label => "Failed to parse rule table: " ++ label
  | .badPattern pattern => "Invalid regex pattern in rule table: " ++ pattern
  | .emptyCanonicalKey table position =>
    "Rule " ++ toString position ++ " in table " ++ table ++ " has an empty canonical key"
  | .duplicateCanonicalKey table key =>
    "Canonical key " ++ key ++ " is declared by more than one rule in table " ++ table

namespace TableSpec

/-- Check the canonical keys of rules, given those of the rules before them. -/
def checkKeys (table : String) (before : List String) (position : Nat) :
    List RuleSpec → Except TableFault Unit
  | [] => .ok ()
  | r :: rs =>
    if r.canonicalKey = "" then .error (.emptyCanonicalKey table position)
    else if r.canonicalKey ∈ before then .error (.duplicateCanonicalKey table r.canonicalKey)
    else checkKeys table (r.canonicalKey :: before) (position + 1) rs

/-- Check that canonical keys are non-empty and unique. Rules are checked in order, and the first
fault is reported. -/
def validate (t : TableSpec) : Except TableFault Unit := checkKeys t.name [] 1 t.rules

end TableSpec

end DeviceSnapshot
