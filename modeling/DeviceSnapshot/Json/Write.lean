import DeviceSnapshot.Hexadecimal
import DeviceSnapshot.Json.Number

/-!
# Writing JSON text

One writer serves both spacings. Compact text has no blanks at all. Pretty text starts a new line
for every element and member and before the end of its container, indented by two spaces for each
open container, and puts a space after the colon. An empty container is written without a break in
both.

In a string only the quote, the backslash and the control characters below the space are escaped;
the five with a letter of their own by that letter, the others by number.
-/

namespace DeviceSnapshot

namespace Json

/-- Where blanks go between the tokens of a text. -/
inductive Spacing where
  | compact
  | pretty
  deriving DecidableEq

/-- The blanks before a token that starts a new line, inside the given number of containers. -/
def Spacing.line : Spacing → Nat → List Char
  | .compact, _ => []
  | .pretty, depth => '\n' :: List.replicate (2 * depth) ' '

def Spacing.colon : Spacing → List Char
  | .compact => [':']
  | .pretty => [':', ' ']

/-! ## Strings -/

/-- A character as it is written inside a string. -/
def escape (c : Char) : List Char :=
  if c = '"' then ['\\', '"']
  else if c = '\\' then ['\\', '\\']
  else if c = '\x08' then ['\\', 'b']
  else if c = '\x0c' then ['\\', 'f']
  else if c = '\n' then ['\\', 'n']
  else if c = '\r' then ['\\', 'r']
  else if c = '\t' then ['\\', 't']
  else if c < ' ' then
    ['\\', 'u', '0', '0', hexDigit (c.toNat / 16), hexDigit (c.toNat % 16)]
  else [c]

/-- A string in quotes. -/
def quote (s : String) : List Char := '"' :: s.toList.flatMap escape ++ ['"']

/-! ## Values -/

mutual

/-- The text of a value inside the given number of containers. -/
def write (sp : Spacing) (depth : Nat) : Json → List Char
  | .null => ['n', 'u', 'l', 'l']
  | .bool true => ['t', 'r', 'u', 'e']
  | .bool false => ['f', 'a', 'l', 's', 'e']
  | .int n => n.text
  | .float x => x.text
  | .str s => quote s
  | .arr [] => ['[', ']']
  | .arr (v :: vs) =>
    '[' :: sp.line (depth + 1) ++ write sp (depth + 1) v ++ writeItems sp (depth + 1) vs
      ++ sp.line depth ++ [']']
  | .obj [] => ['\x7b', '\x7d']
  | .obj ((k, v) :: ms) =>
    '\x7b' :: sp.line (depth + 1) ++ quote k ++ sp.colon ++ write sp (depth + 1) v
      ++ writeMembers sp (depth + 1) ms ++ sp.line depth ++ ['\x7d']

def writeItems (sp : Spacing) (depth : Nat) : List Json → List Char
  | [] => []
  | v :: vs => ',' :: sp.line depth ++ write sp depth v ++ writeItems sp depth vs

def writeMembers (sp : Spacing) (depth : Nat) : List (String × Json) → List Char
  | [] => []
  | (k, v) :: ms =>
    ',' :: sp.line depth ++ quote k ++ sp.colon ++ write sp depth v ++ writeMembers sp depth ms

end

/-- The text of a value without blanks. -/
def compact (v : Json) : String := String.ofList (v.write .compact 0)

/-- The text of a value, indented by two spaces. -/
def pretty (v : Json) : String := String.ofList (v.write .pretty 0)

end Json

end DeviceSnapshot
