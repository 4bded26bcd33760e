import DeviceSnapshot.Json.Token

/-!
# Reading JSON text

The tokens of a text are read one by one. What has been read so far is a stack of open containers,
each waiting for the value of its next place, and a state that says which tokens may come next.
When a value is complete it is put into its place in the innermost open container; when none is
open, it is the value of the whole text.

A container may be opened while fewer than `maxDepth` containers are open, so exactly the values of
depth up to `maxDepth` can be read. Members go into their object in key order, and a member that
comes again replaces the earlier one; therefore every value that is read is ordered.
-/

namespace DeviceSnapshot

namespace Json

/-- How deep containers may nest in a text that is read. -/
def maxDepth : Nat := 127

/-- An open container that waits for a value. -/
inductive Frame where
  /-- An array and its elements so far, the last one first. -/
  | item (before : List Json)
  /-- An object, its members so far, and the name of the next one. -/
  | member (before : Keyed Json) (name : String)

/-- What has been read, and hence what may come next. -/
inductive Reader where
  /-- A value. -/
  | anyValue (outer : List Frame)
  /-- The first element of an array, or its end. -/
  | firstItem (outer : List Frame)
  /-- A comma, or the end of an array. -/
  | afterItem (items : List Json) (outer : List Frame)
  /-- The first name of an object, or its end. -/
  | firstName (outer : List Frame)
  /-- The next name of an object. -/
  | nextName (members : Keyed Json) (outer : List Frame)
  /-- The colon after a name. -/
  | afterName (members : Keyed Json) (name : String) (outer : List Frame)
  /-- A comma, or the end of an object. -/
  | afterMember (members : Keyed Json) (outer : List Frame)
  /-- Nothing: the value of the text is complete. -/
  | complete (v : Json)

namespace Reader

/-- Put a complete value into its place. -/
def place (v : Json) : List Frame → Reader
  | [] => .complete v
  | .item before :: outer => .afterItem (v :: before) outer
  | .member before name :: outer => .afterMember (Keyed.insert before name v) outer

/-- The token that starts a value whose surroundings are the given open containers. -/
def start (outer : List Frame) : Token → Option Reader
  | .scalar v => some (place v outer)
  | .string s => some (place (.str s) outer)
  | .beginArray => if outer.length < maxDepth then some (.firstItem outer) else none
  | .beginObject => if outer.length < maxDepth then some (.firstName outer) else none
  | _ => none

/-- Read one token. -/
def step : Reader → Token → Option Reader
  | .anyValue outer, t => start outer t
  | .firstItem outer, .endArray => some (place (.arr []) outer)
  | .firstItem outer, t => start (.item [] :: outer) t
  | .afterItem items outer, .comma => some (.anyValue (.item items :: outer))
  | .afterItem items outer, .endArray => some (place (.arr items.reverse) outer)
  | .firstName outer, .endObject => some (place (.obj []) outer)
  | .firstName outer, .string s => some (.afterName [] s outer)
  | .nextName members outer, .string s => some (.afterName members s outer)
  | .afterName members s outer, .colon => some (.anyValue (.member members s :: outer))
  | .afterMember members outer, .comma => some (.nextName members outer)
  | .afterMember members outer, .endObject => some (place (.obj members) outer)
  | _, _ => none

/-- Read tokens one after the other. -/
def run : Reader → List Token → Option Reader
  | r, [] => some r
  | r, t :: ts =>
    match step r t with
    | none => none
    | some r' => run r' ts

/-- The value of the whole text, when it is complete. -/
def value? : Reader → Option Json
  | .complete v => some v
  | _ => none

end Reader

/-- The value that tokens write. -/
def ofTokens? (ts : List Token) : Option Json := (Reader.run (.anyValue []) ts).bind Reader.value?

/-- The value that a text writes, or nothing when it is not the text of a value. -/
def decode? (text : String) : Option Json := (Token.tokens? text.toList).bind ofTokens?

end Json

end DeviceSnapshot
