import DeviceSnapshot.Toml.Quoted
import DeviceSnapshot.Toml.Scalar
import DeviceSnapshot.Toml.Tree

/-!
# Reading TOML documents

A document is a sequence of lines, each with a header, an assignment, or nothing, and perhaps a
comment. Values may span lines inside brackets and braces, where line breaks and comments may stand
between any two pieces but the parts of a key. Arrays and inline tables nest at most `maxValueDepth`
deep.
-/

namespace DeviceSnapshot

namespace Toml

/-- How deep arrays and inline tables may nest. -/
def maxValueDepth : Nat := 80

/-! ## Blanks, comments and line breaks -/

/-- Without a comment at the front; `none` when it holds a control character. -/
def skipComment? : List Char → Option (List Char)
  | '#' :: cs =>
    match cs.dropWhile isPlain with
    | [] => some []
    | '\n' :: rest => some ('\n' :: rest)
    | '\r' :: '\n' :: rest => some ('\r' :: '\n' :: rest)
    | _ => none
  | cs => some cs

/-- Without blanks, comments and line breaks at the front. -/
def skipLines? : Nat → List Char → Option (List Char)
  | 0, _ => none
  | fuel + 1, cs => do
    let cs ← skipComment? (skipSpaces cs)
    match readBreak? cs with
    | some rest => skipLines? fuel rest
    | none => some cs

/-- The end of a line: blanks, a comment, and a line break or the end of the text. -/
def endLine? (cs : List Char) : Option (List Char) := do
  match ← skipComment? (skipSpaces cs) with
  | [] => some []
  | cs => readBreak? cs

/-! ## Values -/

mutual

/-- A value inside the given number of arrays and inline tables. -/
def readValue? : Nat → Nat → List Char → Option (Toml × List Char)
  | 0, _, _ => none
  | fuel + 1, depth, cs =>
    match cs with
    | '[' :: cs => if depth < maxValueDepth then readItems? fuel (depth + 1) [] cs else none
    | '\x7b' :: cs => if depth < maxValueDepth then readEntries? fuel (depth + 1) [] cs else none
    | c :: _ =>
      if c == '"' || c == '\x27' then
        (readString? cs).map fun (s, rest) ↦ (.string (String.ofList s), rest)
      else
        let (word, rest) := readWord cs
        (ofWord? word).map fun v ↦ (v, rest)
    | [] => none

def readItems? : Nat → Nat → List Toml → List Char → Option (Toml × List Char)
  | 0, _, _, _ => none
  | fuel + 1, depth, read, cs => do
    match ← skipLines? (cs.length + 1) cs with
    | ']' :: rest => some (.array read.reverse, rest)
    | cs =>
      let (v, cs) ← readValue? fuel depth cs
      match ← skipLines? (cs.length + 1) cs with
      | ']' :: rest => some (.array (v :: read).reverse, rest)
      | ',' :: rest => readItems? fuel depth (v :: read) rest
      | _ => none

/-- The entries of an inline table up to its closing brace. Unlike on a line of its own, an
assignment may be broken before and after the equals sign. -/
def readEntries? : Nat → Nat → Entries → List Char → Option (Toml × List Char)
  | 0, _, _, _ => none
  | fuel + 1, depth, read, cs => do
    match ← skipLines? (cs.length + 1) cs with
    | '\x7d' :: rest => some (.table (Tree.entriesToToml read), rest)
    | cs =>
      let (keys, cs) ← readKey? maxKeyParts cs
      let '=' :: cs ← skipLines? (cs.length + 1) cs | none
      let (v, cs) ← readValue? fuel depth (← skipLines? (cs.length + 1) cs)
      let read ← read.assign? v keys
      match ← skipLines? (cs.length + 1) cs with
      | '\x7d' :: rest => some (.table (Tree.entriesToToml read), rest)
      | ',' :: rest => readEntries? fuel depth read rest
      | _ => none

end

/-! ## Lines -/

/-- What one line of a document does. -/
inductive Line where
  | header (path : List String) (key : String)
  | tablesHeader (path : List String) (key : String)
  | assignment (keys : List String) (v : Toml)

/-- The keys of a header, cut before the last. -/
def splitLast? : List String → Option (List String × String)
  | [] => none
  | [key] => some ([], key)
  | key :: keys => (splitLast? keys).map fun (path, last) ↦ (key :: path, last)

/-- A line with a header or an assignment. -/
def readLine? (cs : List Char) : Option (Line × List Char) :=
  match cs with
  | '[' :: '[' :: cs => do
    let (keys, cs) ← readKey? maxKeyParts cs
    let ']' :: ']' :: cs := cs | none
    let (path, key) ← splitLast? keys
    some (.tablesHeader path key, ← endLine? cs)
  | '[' :: cs => do
    let (keys, cs) ← readKey? maxKeyParts cs
    let ']' :: cs := cs | none
    let (path, key) ← splitLast? keys
    some (.header path key, ← endLine? cs)
  | cs => do
    let (keys, cs) ← readKey? maxKeyParts cs
    let '=' :: cs := cs | none
    let (v, cs) ← readValue? (2 * cs.length + 2) 0 (skipSpaces cs)
    some (.assignment keys v, ← endLine? cs)

/-- All lines of a text. -/
def readAll? : Nat → List Char → Option (List Line)
  | 0, _ => none
  | fuel + 1, cs => do
    match ← skipLines? (cs.length + 1) cs with
    | [] => some []
    | cs =>
      let (line, rest) ← readLine? cs
      let lines ← readAll? fuel rest
      some (line :: lines)

/-- The document after a line, together with the path of the table that assignments go to. -/
def Line.apply? : List String × Entries → Line → Option (List String × Entries)
  | (_, es), .header path key => (es.define? path key).map fun es ↦ (path ++ [key], es)
  | (_, es), .tablesHeader path key => (es.append? path key).map fun es ↦ (path ++ [key], es)
  | (here, es), .assignment keys v =>
    (es.descend? (Entries.assign? v keys) here).map fun es ↦ (here, es)

/-- The table that a document describes, or nothing when it is malformed. A byte order mark at the
start is ignored. -/
def ofText? (text : String) : Option Toml := do
  let cs := match text.toList with
    | '\ufeff' :: cs => cs
    | cs => cs
  let lines ← readAll? (cs.length + 1) cs
  let (_, entries) ← lines.foldlM Line.apply? ([], [])
  some (.table (Tree.entriesToToml entries))

end Toml

end DeviceSnapshot
