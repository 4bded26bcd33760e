import DeviceSnapshot.Pattern.Reader
import DeviceSnapshot.Pattern.Search

/-!
# Patterns

Of a pattern, a table uses the text that it was read from and the texts in which it matches. Which
texts are accepted as patterns is up to a reader (`PatternReader`), and nothing else that is done
with tables depends on how patterns are written.

The program reads a pattern as an expression and searches for a stretch that matches it
(`Expr.reader`). It is not the only reader there can be: one that knows classes by Unicode property,
for instance, accepts texts that this one refuses.
-/

namespace DeviceSnapshot

/-- A reader of patterns: if a text is accepted, in which texts the pattern matches somewhere. -/
abbrev PatternReader := String → Option (String → Bool)

/-- A pattern that was read without fault, and the text it was read from. -/
structure Pattern where
  source : String
  isMatch : String → Bool

/-- Whether some stretch of a text matches. -/
def Expr.isMatch (e : Expr) (text : String) : Bool := e.occurs text.toList

/-- The reader of the program. -/
def Expr.reader : PatternReader := fun source ↦ (Expr.ofText? source).map Expr.isMatch

/-- The pattern that a text writes. -/
def Pattern.ofText? (source : String) (read : PatternReader := Expr.reader) : Option Pattern :=
  (read source).map fun isMatch ↦ { source, isMatch }

end DeviceSnapshot
