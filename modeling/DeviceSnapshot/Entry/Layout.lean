import DeviceSnapshot.Json.Basic

/-!
# How a device entry stores its fields

An entry holds named fields in one of two containers. The plain one is an object with a member for
each field. The pairs container is an object whose only member `Object` is an array of pairs
`[name, value]`; field names may repeat there, and the first pair with a name is the field. A tagged
layout reads both, a plain layout reads only objects.

Inside a field, a text may be bare or wrapped as `{"String": text}`, and a list may be bare or
wrapped as `{"Array": list}`. Reading accepts both forms. Writing keeps the form of the value that
is replaced, and where there is none it follows the encoding of the layout.

A pairs container is read from the front, and reading stops at the field that is looked for, so a
malformed pair matters only when it comes before that.

A write gives a new entry or a fault. The write in place does the same to an entry that someone
holds on to, and tells what is left of that entry when it fails.
-/

namespace DeviceSnapshot

/-- How entries are encoded where nothing says otherwise. -/
inductive Encoding where
  | plain
  | tagged
  deriving DecidableEq

def Encoding.name : Encoding → String
  | .plain => "plain"
  | .tagged => "tagged"

/-- The names of the three fields that may be changed. -/
structure FieldNames where
  paths : String := "PATHS"
  devpath : String := "DEVPATH"
  dmUuid : String := "DM_UUID"
  deriving DecidableEq

/-- How fields are read from and written into an entry. -/
structure Layout where
  encoding : Encoding
  fields : FieldNames
  deriving DecidableEq

/-- Why an entry cannot be read or amended. -/
inductive ShapeFault where
  | notAContainer (expected : Encoding)
  /-- The pair at a position, counted from zero, is not a name and a value. -/
  | malformedPair (position : Nat)
  | notAList (field : String)
  /-- The element at a position, counted from zero, is not a text. -/
  | notAString (field : String) (position : Nat)
  deriving DecidableEq

def ShapeFault.message : ShapeFault → String
  | .notAContainer expected => "entry is not a " ++ expected.name ++ " container"
  | .malformedPair position =>
    "field pair " ++ toString position ++ " is not a [name, value] pair"
  | .notAList field => "field " ++ field ++ " is not a list"
  | .notAString field position =>
    "element " ++ toString position ++ " of field " ++ field ++ " is not a string"

/-! ## Wrapped values -/

namespace Json

/-- The value wrapped under a tag: that of the only member, when it has the tag as its name. -/
def tagged? (tag : String) : Json → Option Json
  | .obj [(name, v)] => if name = tag then some v else none
  | _ => none

/-- Wrap a value under a tag. -/
def wrap (tag : String) (v : Json) : Json := .obj [(tag, v)]

/-- The pairs of a pairs container. -/
def pairs? (entry : Json) : Option (List Json) := (entry.tagged? "Object").bind arr?

/-- The text of a value, bare or wrapped. -/
def text? (v : Json) : Option String := v.str?.or ((v.tagged? "String").bind str?)

/-- The elements of a list, bare or wrapped. -/
def list? (v : Json) : Option (List Json) := v.arr?.or ((v.tagged? "Array").bind arr?)

/-- The name and the value of a pair. -/
def pair? : Json → Option (String × Json)
  | .arr [.str name, v] => some (name, v)
  | _ => none

end Json

/-! ## Pairs -/

namespace Pairs

/-- The value of the first pair with a name. Positions count on from the given one. -/
def get? (name : String) (position : Nat) : List Json → Except ShapeFault (Option Json)
  | [] => .ok none
  | p :: ps =>
    match p.pair? with
    | none => .error (.malformedPair position)
    | some (n, v) => if n = name then .ok (some v) else get? name (position + 1) ps

/-- Replace the value of the first pair with a name, or append a pair. -/
def upsert (name : String) (v : Json) (position : Nat) : List Json → Except ShapeFault (List Json)
  | [] => .ok [.arr [.str name, v]]
  | p :: ps =>
    match p.pair? with
    | none => .error (.malformedPair position)
    | some (n, _) =>
      if n = name then .ok (.arr [.str name, v] :: ps)
      else (upsert name v (position + 1) ps).map (p :: ·)

/-- The write in place: how it went, and the pairs as it leaves them. -/
def store (name : String) (v : Json) (position : Nat) :
    List Json → Except ShapeFault Unit × List Json
  | [] => (.ok (), [.arr [.str name, v]])
  | p :: ps =>
    match p.pair? with
    | none => (.error (.malformedPair position), p :: ps)
    | some (n, _) =>
      if n = name then (.ok (), .arr [.str name, v] :: ps)
      else
        let (result, ps) := store name v (position + 1) ps
        (result, p :: ps)

end Pairs

/-! ## Fields of an entry -/

namespace Layout

/-- The pairs of an entry that this layout reads as a pairs container. -/
def pairs? (layout : Layout) (entry : Json) : Option (List Json) :=
  match layout.encoding with
  | .plain => none
  | .tagged => entry.pairs?

/-- The value of a field, or nothing when the entry lacks it. -/
def get? (layout : Layout) (entry : Json) (field : String) : Except ShapeFault (Option Json) :=
  match layout.pairs? entry with
  | some ps => Pairs.get? field 0 ps
  | none =>
    match entry with
    | .obj members => .ok (Keyed.get? members field)
    | _ => .error (.notAContainer layout.encoding)

/-- The entry with a field set, whether it was there before or not. The entry keeps its container;
in a pairs container every other pair keeps its position. -/
def upsert (layout : Layout) (entry : Json) (field : String) (v : Json) :
    Except ShapeFault Json :=
  match layout.pairs? entry with
  | some ps => (Pairs.upsert field v 0 ps).map fun ps ↦ .wrap "Object" (.arr ps)
  | none =>
    match entry with
    | .obj members => .ok (.obj (Keyed.insert members field v))
    | _ => .error (.notAContainer layout.encoding)

/-- The write in place: how it went, and the entry as it leaves it. -/
def store (layout : Layout) (entry : Json) (field : String) (v : Json) :
    Except ShapeFault Unit × Json :=
  match layout.pairs? entry with
  | some ps =>
    let (result, ps) := Pairs.store field v 0 ps
    (result, .wrap "Object" (.arr ps))
  | none =>
    match entry with
    | .obj members => (.ok (), .obj (Keyed.insert members field v))
    | _ => (.error (.notAContainer layout.encoding), entry)

/-- Whether a value that replaces the given one is wrapped under a tag. -/
def wraps (layout : Layout) (tag : String) : Option Json → Bool
  | some v => (v.tagged? tag).isSome
  | none => layout.encoding = .tagged

/-- A text in the form of the value that it replaces. -/
def stringLike (layout : Layout) (existing : Option Json) (s : String) : Json :=
  if layout.wraps "String" existing then .wrap "String" (.str s) else .str s

/-- A list in the form of the value that it replaces. -/
def listLike (layout : Layout) (existing : Option Json) (items : List Json) : Json :=
  if layout.wraps "Array" existing then .wrap "Array" (.arr items) else .arr items

end Layout

end DeviceSnapshot
