import DeviceSnapshot.Table.Spec
import DeviceSnapshot.Toml.Document

/-!
# Reading rule tables

A table is a TOML document. A record inside it is written as a table of named parts or as an array
of its parts in order; parts that nobody asks for are ignored, but the numbers in them must fit a
128-bit word or be finite. An action is taken in as a whole before its kind is known, and then its
numbers must fit a 64-bit word and an array must have exactly its parts.
-/

namespace DeviceSnapshot

namespace Toml

/-- A part of a record, by its name or by its position; the outer `none` says that the value is no
record. -/
def part? (name : String) (position : Nat) : Toml → Option (Option Toml)
  | .table entries => some (entries.lookup name)
  | .array items => some items[position]?
  | _ => none

/-- A part of a record that must be there and be a text. -/
def stringPart? (name : String) (position : Nat) (v : Toml) : Option String := do
  (← (← v.part? name position)).string?

/-- Whether the parts of a record that are not among the given ones can be passed over. -/
def othersFit (names : List String) : Toml → Bool
  | .table entries => entries.all fun e ↦ e.1 ∈ names || e.2.fits 128
  | _ => true

/-- Whether a record in the form of an array has no more than the given number of parts. -/
def hasAtMost (count : Nat) : Toml → Bool
  | .array items => items.length ≤ count
  | _ => true

end Toml

namespace Encoding

def ofName? (name : String) : Option Encoding :=
  if name = Encoding.plain.name then some .plain
  else if name = Encoding.tagged.name then some .tagged
  else none

/-- An encoding is written as its name, or as a table with its name as the only key, under which
stands something empty. -/
def ofToml? : Toml → Option Encoding
  | .string name => ofName? name
  | .table [(name, .table [])] | .table [(name, .array [])] => ofName? name
  | _ => none

end Encoding

namespace FieldNames

/-- All three names are required. -/
def ofToml? (v : Toml) : Option FieldNames := do
  let paths ← v.stringPart? "paths" 0
  let devpath ← v.stringPart? "devpath" 1
  let dmUuid ← v.stringPart? "dm_uuid" 2
  if v.othersFit ["paths", "devpath", "dm_uuid"] then some { paths, devpath, dmUuid } else none

end FieldNames

namespace SubstitutionSpec

/-- A pattern and its replacement. -/
def ofToml? (v : Toml) : Option SubstitutionSpec := do
  let pattern ← v.stringPart? "pattern" 0
  let replacement ← v.stringPart? "replacement" 1
  if v.hasAtMost 2 then some { pattern, replacement } else none

end SubstitutionSpec

namespace ActionSpec

/-- The kind of an action decides which part it has beside it. -/
def ofToml? (v : Toml) : Option ActionSpec := do
  let kind ← v.stringPart? "kind" 0
  if !v.fits 64 || !v.hasAtMost 2 then none
  else
    match kind with
    | "paths" => do
      let items ← (← (← v.part? "substitutions" 1)).array?
      some (.paths (← items.mapM SubstitutionSpec.ofToml?))
    | "devpath" => (v.stringPart? "value" 1).map .devpath
    | "dm-uuid" => (v.stringPart? "value" 1).map .dmUuid
    | _ => none

end ActionSpec

namespace RuleSpec

/-- A rule may leave out its actions. -/
def ofToml? (v : Toml) : Option RuleSpec := do
  let keyPattern ← v.stringPart? "key_pattern" 0
  let canonicalKey ← v.stringPart? "canonical_key" 1
  let actions ←
    match ← v.part? "actions" 2 with
    | none => some []
    | some a => do (← a.array?).mapM ActionSpec.ofToml?
  if v.othersFit ["key_pattern", "canonical_key", "actions"] then
    some { keyPattern, canonicalKey, actions }
  else none

end RuleSpec

namespace TableSpec

/-- A table must have a name; all else may be left out. -/
def ofToml? (v : Toml) : Option TableSpec := do
  let name ← v.stringPart? "name" 0
  let encoding ←
    match ← v.part? "encoding" 1 with
    | none => some .plain
    | some e => Encoding.ofToml? e
  let fields ←
    match ← v.part? "fields" 2 with
    | none => some {}
    | some f => FieldNames.ofToml? f
  let rules ←
    match ← v.part? "rules" 3 with
    | none => some []
    | some r => do (← r.array?).mapM RuleSpec.ofToml?
  if v.othersFit ["name", "encoding", "fields", "rules"] then
    some { name, encoding, fields, rules }
  else none

/-- Read a table and check it. The label only names the text in the message of a fault. -/
def parse (text label : String) : Except TableFault TableSpec :=
  match (Toml.ofText? text).bind ofToml? with
  | none => .error (.unreadable label)
  | some t => t.validate.map fun _ ↦ t

end TableSpec

end DeviceSnapshot
