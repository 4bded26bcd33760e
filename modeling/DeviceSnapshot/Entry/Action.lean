import DeviceSnapshot.Entry.Layout
import DeviceSnapshot.Pattern.Basic

/-!
# Amending a device entry

An action amends one field of an entry and leaves all else as it is. The field of paths is a list
whose elements are taken one by one: an element that a substitution matches becomes the fixed path
of the first such substitution, every other element stays. The two other actions overwrite their
field with a fixed text. A field that the entry lacks is added; a missing list of paths becomes an
empty list.
-/

namespace DeviceSnapshot

/-- A path that matches the pattern anywhere becomes the replacement as a whole. -/
structure Substitution where
  pattern : Pattern
  replacement : String

namespace Substitution

/-- A path after the first substitution that matches it, or the path itself. -/
def applyFirst (subs : List Substitution) (path : String) : String :=
  match subs.find? (·.pattern.isMatch path) with
  | some sub => sub.replacement
  | none => path

def describe (sub : Substitution) : String := sub.pattern.source ++ " -> " ++ sub.replacement

end Substitution

/-- A change of one field of an entry. -/
inductive Action where
  | paths (subs : List Substitution)
  | devpath (text : String)
  | dmUuid (text : String)

namespace Action

/-- The name of the field that an action changes. -/
def target (fields : FieldNames) : Action → String
  | .paths _ => fields.paths
  | .devpath _ => fields.devpath
  | .dmUuid _ => fields.dmUuid

def describe : Action → String
  | .paths subs => "paths [" ++ ", ".intercalate (subs.map Substitution.describe) ++ "]"
  | .devpath text => "devpath = " ++ text
  | .dmUuid text => "dm-uuid = " ++ text

/-- The elements of a list of paths after substitution, each in the form that it had. Positions
count on from the given one. -/
def substituteItems (layout : Layout) (subs : List Substitution) (position : Nat) :
    List Json → Except ShapeFault (List Json)
  | [] => .ok []
  | item :: items =>
    match item.text? with
    | none => .error (.notAString layout.fields.paths position)
    | some path =>
      (substituteItems layout subs (position + 1) items).map
        (layout.stringLike (some item) (Substitution.applyFirst subs path) :: ·)

/-- The value that an action gives its field in place of the existing one. -/
def newValue (layout : Layout) (existing : Option Json) : Action → Except ShapeFault Json
  | .paths subs =>
    match existing with
    | none => .ok (layout.listLike none [])
    | some v =>
      match v.list? with
      | none => .error (.notAList layout.fields.paths)
      | some items => (substituteItems layout subs 0 items).map (layout.listLike (some v))
  | .devpath text | .dmUuid text => .ok (layout.stringLike existing text)

/-- The entry after an action. -/
def apply (layout : Layout) (a : Action) (entry : Json) : Except ShapeFault Json := do
  let existing ← layout.get? entry (a.target layout.fields)
  let v ← a.newValue layout existing
  layout.upsert entry (a.target layout.fields) v

/-- The entry after all actions, one after the other. -/
def applyAll (layout : Layout) (as : List Action) (entry : Json) : Except ShapeFault Json :=
  as.foldlM (fun entry a ↦ a.apply layout entry) entry

end Action

end DeviceSnapshot
