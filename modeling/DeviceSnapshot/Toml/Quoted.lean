import DeviceSnapshot.Hexadecimal

/-!
# TOML strings and keys

A string is basic, with escapes, or literal, without; either kind may also go over several lines
between three quotes. Control characters other than the tab are refused everywhere, and a carriage
return is only read before a line feed inside a string of several lines. Such a string drops the
line break right after its opening quotes, and it may end in one or two quotes of its own before the
closing ones.
-/

namespace DeviceSnapshot

namespace Toml

/-- A character that may stand inside strings and comments. -/
def isPlain (c : Char) : Bool := c == '\t' || (' ' ≤ c && c != '\x7f')

def isSpace (c : Char) : Bool := c == ' ' || c == '\t'

def skipSpaces (cs : List Char) : List Char := cs.dropWhile isSpace

/-! ## Escapes -/

/-- A code point in a fixed number of hexadecimal digits. -/
def readCodePoint? (count : Nat) (cs : List Char) : Option (Char × List Char) := do
  let ds := cs.take count
  if ds.length < count then none
  else some (← codePoint? (← hexNumber? ds), cs.drop count)

/-- The character of an escape after its backslash. -/
def readEscape? : List Char → Option (Char × List Char)
  | 'b' :: cs => some ('\x08', cs)
  | 't' :: cs => some ('\t', cs)
  | 'n' :: cs => some ('\n', cs)
  | 'f' :: cs => some ('\x0c', cs)
  | 'r' :: cs => some ('\r', cs)
  | 'e' :: cs => some ('\x1b', cs)
  | '"' :: cs => some ('"', cs)
  | '\\' :: cs => some ('\\', cs)
  | 'x' :: cs => readCodePoint? 2 cs
  | 'u' :: cs => readCodePoint? 4 cs
  | 'U' :: cs => readCodePoint? 8 cs
  | _ => none

/-- A line break at the front. -/
def readBreak? : List Char → Option (List Char)
  | '\n' :: cs => some cs
  | '\r' :: '\n' :: cs => some cs
  | _ => none

/-- Without the blanks and line breaks at the front. A carriage return of its own is no line break
and stays. -/
def skipGap : List Char → List Char
  | '\n' :: cs => skipGap cs
  | '\r' :: '\n' :: cs => skipGap cs
  | c :: cs => if isSpace c then skipGap cs else c :: cs
  | [] => []

/-- A backslash at the end of a line takes with it all blanks and line breaks up to the next
character; `none` when no line ends here. -/
def skipBreak? (cs : List Char) : Option (List Char) := (readBreak? (skipSpaces cs)).map skipGap

/-! ## Strings

The readers take the characters read so far in reverse, and start after the opening quotes. -/

/-- A basic string on one line. -/
def readBasic? : Nat → List Char → List Char → Option (List Char × List Char)
  | 0, _, _ => none
  | _ + 1, read, '"' :: cs => some (read.reverse, cs)
  | fuel + 1, read, '\\' :: cs =>
    (readEscape? cs).bind fun (c, rest) ↦ readBasic? fuel (c :: read) rest
  | fuel + 1, read, c :: cs => if isPlain c then readBasic? fuel (c :: read) cs else none
  | _ + 1, _, [] => none

def readLiteral? : List Char → List Char → Option (List Char × List Char)
  | read, '\x27' :: cs => some (read.reverse, cs)
  | read, c :: cs => if isPlain c then readLiteral? (c :: read) cs else none
  | _, [] => none

/-- The quotes at the end of a string of several lines: up to two of its own before the closing
three. -/
def readClosing? (quote : Char) (cs : List Char) : Option (List Char × List Char) :=
  let count := min 5 (cs.takeWhile (· == quote)).length
  if 3 ≤ count then some (List.replicate (count - 3) quote, cs.drop count) else none

def readLongBasic? : Nat → List Char → List Char → Option (List Char × List Char)
  | 0, _, _ => none
  | _ + 1, _, [] => none
  | fuel + 1, read, '"' :: cs =>
    match readClosing? '"' ('"' :: cs) with
    | some (own, rest) => some (read.reverse ++ own, rest)
    | none => readLongBasic? fuel ('"' :: read) cs
  | fuel + 1, read, '\\' :: cs =>
    match skipBreak? cs with
    | some rest => readLongBasic? fuel read rest
    | none => (readEscape? cs).bind fun (c, rest) ↦ readLongBasic? fuel (c :: read) rest
  | fuel + 1, read, '\r' :: '\n' :: cs => readLongBasic? fuel ('\n' :: '\r' :: read) cs
  | fuel + 1, read, c :: cs =>
    if isPlain c || c == '\n' then readLongBasic? fuel (c :: read) cs else none

def readLongLiteral? : List Char → List Char → Option (List Char × List Char)
  | _, [] => none
  | read, '\x27' :: cs =>
    match readClosing? '\x27' ('\x27' :: cs) with
    | some (own, rest) => some (read.reverse ++ own, rest)
    | none => readLongLiteral? ('\x27' :: read) cs
  | read, '\r' :: '\n' :: cs => readLongLiteral? ('\n' :: '\r' :: read) cs
  | read, c :: cs => if isPlain c || c == '\n' then readLongLiteral? (c :: read) cs else none

/-- A string of any kind, from its opening quote on; `none` when there is no well-formed one. -/
def readString? : List Char → Option (List Char × List Char)
  | '"' :: '"' :: '"' :: cs =>
    let body := (readBreak? cs).getD cs
    readLongBasic? (body.length + 1) [] body
  | '"' :: cs => readBasic? (cs.length + 1) [] cs
  | '\x27' :: '\x27' :: '\x27' :: cs => readLongLiteral? [] ((readBreak? cs).getD cs)
  | '\x27' :: cs => readLiteral? [] cs
  | _ => none

/-! ## Keys -/

def isBareKey (c : Char) : Bool := c.isAlphanum || c == '_' || c == '-'

/-- One part of a key. -/
def readKeyPart? : List Char → Option (String × List Char)
  | '"' :: cs => (readBasic? (cs.length + 1) [] cs).map fun (s, rest) ↦ (String.ofList s, rest)
  | '\x27' :: cs => (readLiteral? [] cs).map fun (s, rest) ↦ (String.ofList s, rest)
  | cs =>
    let part := cs.takeWhile isBareKey
    if part = [] then none else some (String.ofList part, cs.drop part.length)

/-- How many parts a key may have. -/
def maxKeyParts : Nat := 80

/-- A key of at most the given number of parts, with dots between them. Blanks may stand around each
part. -/
def readKey? : Nat → List Char → Option (List String × List Char)
  | 0, _ => none
  | count + 1, cs => do
    let (part, cs) ← readKeyPart? (skipSpaces cs)
    match skipSpaces cs with
    | '.' :: cs => do
      let (parts, rest) ← readKey? count cs
      some (part :: parts, rest)
    | rest => some ([part], rest)

end Toml

end DeviceSnapshot
