import DeviceSnapshot.Toml.Value

/-!
# The tables of a TOML document

A document defines its tables piece by piece: by headers, by dotted keys, and by headers of arrays
of tables. The tree built so far remembers how each table came about, because that decides how it
may be extended.

A table with a header of its own is defined once. A table that only lay on the way to another header
may still get its header. A table made by dotted keys may be extended by further dotted keys of the
same header, and headers may define tables below it. A value, also an inline table or an array in
brackets, is complete and never extended.
-/

namespace DeviceSnapshot

namespace Toml

/-- How a table came about. -/
inductive Origin where
  /-- It has a header. -/
  | header
  /-- It lies on the way to the table of a header. -/
  | implied
  /-- It was made by a dotted key. -/
  | dotted
  deriving DecidableEq

/-- A part of a document under construction. -/
inductive Tree where
  | value (v : Toml)
  | table (origin : Origin) (entries : List (String × Tree))
  /-- An array of tables: the finished ones, the last one first, and the open one. -/
  | tables (before : List (List (String × Tree))) (current : List (String × Tree))

/-- Entries under construction. -/
abbrev Entries := List (String × Tree)

namespace Entries

/-- Replace the entry under a key by what a function makes of it. -/
def modify? (key : String) (f : Option Tree → Option Tree) : Entries → Option Entries
  | [] => (f none).map fun t ↦ [(key, t)]
  | (k, t) :: es =>
    if k = key then (f (some t)).map fun t ↦ (k, t) :: es
    else (modify? key f es).map ((k, t) :: ·)

/-- Set a dotted key. The tables on its way are made by dotted keys, or were implied by headers; the
last of them was made by a dotted key. -/
def assign? (v : Toml) : List String → Entries → Option Entries
  | [], _ => none
  | [key], es => es.modify? key fun
    | none => some (.value v)
    | some _ => none
  | key :: next :: keys, es => es.modify? key fun
    | none => (assign? v (next :: keys) []).map (.table .dotted)
    | some (.table origin inner) =>
      if origin = .dotted ∨ (origin = .implied ∧ keys ≠ []) then
        (assign? v (next :: keys) inner).map (.table origin)
      else none
    | some (.tables before current) =>
      if keys ≠ [] then (assign? v (next :: keys) current).map (.tables before) else none
    | some (.value _) => none

/-- Go to the entries of the table under a path of keys, and on the way into the open table of each
array of tables. Missing tables are implied. -/
def descend? (f : Entries → Option Entries) : List String → Entries → Option Entries
  | [], es => f es
  | key :: keys, es => es.modify? key fun
    | none => (descend? f keys []).map (.table .implied)
    | some (.table origin inner) => (descend? f keys inner).map (.table origin)
    | some (.tables before current) => (descend? f keys current).map (.tables before)
    | some (.value _) => none

/-- Define the table of a header, given its path and its last key. -/
def define? (path : List String) (key : String) : Entries → Option Entries :=
  descend? (fun es ↦ es.modify? key fun
    | none => some (.table .header [])
    | some (.table .implied inner) => some (.table .header inner)
    | some _ => none) path

/-- Begin the next table of an array of tables, given its path and its last key. -/
def append? (path : List String) (key : String) : Entries → Option Entries :=
  descend? (fun es ↦ es.modify? key fun
    | none => some (.tables [] [])
    | some (.tables before current) => some (.tables (current :: before) [])
    | some _ => none) path

end Entries

/-! ## The finished document -/

namespace Tree

mutual

/-- The value of a part. -/
def toToml : Tree → Toml
  | .value v => v
  | .table _ entries => .table (entriesToToml entries)
  | .tables before current => .array (tablesToToml [.table (entriesToToml current)] before)

def entriesToToml : List (String × Tree) → List (String × Toml)
  | [] => []
  | (k, t) :: es => (k, toToml t) :: entriesToToml es

/-- The values of tables, given the last one first, before values that are already there. -/
def tablesToToml (after : List Toml) : List (List (String × Tree)) → List Toml
  | [] => after
  | es :: ess => tablesToToml (.table (entriesToToml es) :: after) ess

end

end Tree

end Toml

end DeviceSnapshot
