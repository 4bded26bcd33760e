import DeviceSnapshot.Hexadecimal
import DeviceSnapshot.Pattern.Expr

/-!
# Escapes in patterns

After a backslash stands a character that has no meaning of its own, a letter for a control
character, a code point by number, a class of characters, or an assertion. A digit would refer back
to a group, which patterns here cannot do. Every other letter is refused, and among them is the one
for classes by Unicode property, which are not part of the syntax that is read here.
-/

namespace DeviceSnapshot

/-- What an escape stands for. -/
inductive Escape where
  | char (c : Char)
  | set (s : CharSet)
  | assertion (a : Assertion)

namespace Escape

/-- A code point in braces, or in a fixed number of digits. -/
def readHex? (count : Nat) : List Char → Option (Char × List Char)
  | '\x7b' :: cs =>
    let ds := cs.takeWhile (· != '\x7d')
    match cs.drop ds.length with
    | [] => none
    | _ :: rest => do some (← codePoint? (← hexNumber? ds), rest)
  | cs => do
    if cs.length < count then none
    some (← codePoint? (← hexNumber? (cs.take count)), cs.drop count)

/-- The kinds of word boundary that are named in braces. -/
def namedBoundary? (name : List Char) : Option Assertion :=
  if name = "start".toList then some .wordStart
  else if name = "end".toList then some .wordEnd
  else if name = "start-half".toList then some .wordStartHalf
  else if name = "end-half".toList then some .wordEndHalf
  else none

/-- What follows the letter of a word boundary: a name in braces, or nothing that belongs to it. A
brace before anything but a letter or a hyphen starts a repetition. -/
def readBoundary? : List Char → Option (Assertion × List Char)
  | '\x7b' :: cs =>
    let isName (c : Char) : Bool := c.isAlpha || c == '-'
    match cs with
    | [] => none
    | c :: _ =>
      if isName c then
        let name := cs.takeWhile isName
        match cs.drop name.length with
        | '\x7d' :: rest => (namedBoundary? name).map fun a ↦ (a, rest)
        | _ => none
      else some (.wordBoundary, '\x7b' :: cs)
  | cs => some (.wordBoundary, cs)

/-- The characters that mean something in patterns. -/
def isMeta (c : Char) : Bool := c ∈ "\\.+*?()|[]\x7b\x7d^$#&-~".toList

/-- The characters that stand for themselves after a backslash: all of ASCII but letters, digits and
the angle brackets. -/
def isLiteral (c : Char) : Bool :=
  isMeta c || (c.toNat < 128 && !c.isAlphanum && c != '<' && c != '>')

/-- The escape at the front of a text, after its backslash. -/
def read? : List Char → Option (Escape × List Char)
  | [] => none
  | c :: cs =>
    if isLiteral c then some (.char c, cs)
    else
      match c with
      | 'x' => (readHex? 2 cs).map fun (c, rest) ↦ (.char c, rest)
      | 'u' => (readHex? 4 cs).map fun (c, rest) ↦ (.char c, rest)
      | 'U' => (readHex? 8 cs).map fun (c, rest) ↦ (.char c, rest)
      | 'd' => some (.set .digit, cs)
      | 'D' => some (.set (.compl .digit), cs)
      | 's' => some (.set .blank, cs)
      | 'S' => some (.set (.compl .blank), cs)
      | 'w' => some (.set .word, cs)
      | 'W' => some (.set (.compl .word), cs)
      | 'a' => some (.char '\x07', cs)
      | 'f' => some (.char '\x0c', cs)
      | 't' => some (.char '\t', cs)
      | 'n' => some (.char '\n', cs)
      | 'r' => some (.char '\r', cs)
      | 'v' => some (.char '\x0b', cs)
      | 'A' => some (.assertion .startText, cs)
      | 'z' => some (.assertion .endText, cs)
      | 'b' => (readBoundary? cs).map fun (a, rest) ↦ (.assertion a, rest)
      | 'B' => some (.assertion .notWordBoundary, cs)
      | '<' => some (.assertion .wordStart, cs)
      | '>' => some (.assertion .wordEnd, cs)
      | _ => none

end Escape

end DeviceSnapshot
