import DeviceSnapshot.Pattern.CharSet

/-!
# Regular expressions and what they match

An expression matches stretches of a text. A stretch is given by its two ends, places between the
characters, numbered from `0` before the first character to the length of the text after the last.
Assertions match empty stretches and look at the characters on both sides of a place; this is why
the relation speaks about places in a whole text and not about the stretch cut out of it.

Which of several matches a search would report does not matter here, so lazy and greedy repetition
match alike, and a group matches what is in it. Both stay visible in an expression, because the size
of its automaton depends on how it is written.
-/

namespace DeviceSnapshot

/-- A condition on a place in a text. -/
inductive Assertion where
  | startText | endText | startLine | endLine
  | wordBoundary | notWordBoundary
  | wordStart | wordEnd | wordStartHalf | wordEndHalf
  deriving DecidableEq

namespace Assertion

/-- Whether there is a character and it is a word character. -/
def isWord : Option Char → Bool
  | some c => isWordChar c
  | none => false

/-- Whether the condition holds between two characters; at an end of the text one is missing. -/
def holds : Assertion → Option Char → Option Char → Bool
  | .startText, before, _ => before.isNone
  | .endText, _, after => after.isNone
  | .startLine, before, _ => before.isNone || before == some '\n'
  | .endLine, _, after => after.isNone || after == some '\n'
  | .wordBoundary, before, after => isWord before != isWord after
  | .notWordBoundary, before, after => isWord before == isWord after
  | .wordStart, before, after => !isWord before && isWord after
  | .wordEnd, before, after => isWord before && !isWord after
  | .wordStartHalf, before, _ => !isWord before
  | .wordEndHalf, _, after => !isWord after

end Assertion

inductive Expr where
  | empty
  | chars (s : CharSet)
  | assert (a : Assertion)
  | seq (e f : Expr)
  | alt (e f : Expr)
  /-- A group in parentheses; one that captures what it matches has a number. -/
  | group (number : Option Nat) (e : Expr)
  /-- At least `least` and, when there is a bound, at most `most` times. -/
  | repeat (e : Expr) (least : Nat) (most : Option Nat) (lazy : Bool)
  deriving DecidableEq

namespace Expr

def before? (text : List Char) : Nat → Option Char
  | 0 => none
  | i + 1 => text[i]?

mutual

/-- An expression matches the stretch of a text between two places. -/
inductive Matches (text : List Char) : Expr → Nat → Nat → Prop
  | empty {i : Nat} : i ≤ text.length → Matches text .empty i i
  | chars {s : CharSet} {i : Nat} {c : Char} :
      text[i]? = some c → s.mem c = true → Matches text (.chars s) i (i + 1)
  | assert {a : Assertion} {i : Nat} :
      i ≤ text.length → a.holds (before? text i) text[i]? = true → Matches text (.assert a) i i
  | seq {e f : Expr} {i j k : Nat} :
      Matches text e i j → Matches text f j k → Matches text (.seq e f) i k
  | altLeft {e f : Expr} {i j : Nat} : Matches text e i j → Matches text (.alt e f) i j
  | altRight {e f : Expr} {i j : Nat} : Matches text f i j → Matches text (.alt e f) i j
  | group {number : Option Nat} {e : Expr} {i j : Nat} :
      Matches text e i j → Matches text (.group number e) i j
  | repeat {e : Expr} {least n : Nat} {most : Option Nat} {lazy : Bool} {i j : Nat} :
      Iterates text e n i j → least ≤ n → (∀ m, most = some m → n ≤ m) →
      Matches text (.repeat e least most lazy) i j

/-- Consecutive stretches, as many as given, each match the expression. -/
inductive Iterates (text : List Char) : Expr → Nat → Nat → Nat → Prop
  | zero {e : Expr} {i : Nat} : i ≤ text.length → Iterates text e 0 i i
  | succ {e : Expr} {n i j k : Nat} :
      Matches text e i j → Iterates text e n j k → Iterates text e (n + 1) i k

end

/-- Some stretch of the text matches. -/
def Occurs (e : Expr) (text : List Char) : Prop := ∃ i j, Matches text e i j

/-- A text, character by character. -/
def literal : List Char → Expr
  | [] => .empty
  | [c] => .chars (.single c)
  | c :: cs => .seq (.chars (.single c)) (literal cs)

end Expr

end DeviceSnapshot
