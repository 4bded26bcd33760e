import DeviceSnapshot.Pattern.Expr

/-!
# Searching a text

A search follows all stretches at once. It starts with a set of places and computes the set of
places at which a match that starts at one of them can end. A set of places is a list of Booleans,
one for each place of the text, from the one before the first character to the one after the last.

All steps of this are list operations on such a list, and the only loop is the closure under an
expression that repeats without bound. Each round of it adds a place or changes nothing, so it ends
after at most as many rounds as there are places, whatever the expression is: repetition inside
repetition, or of something empty, needs no special care.
-/

namespace DeviceSnapshot

/-- A set of places in a text. -/
abbrev Places := List Bool

namespace Places

def union (s t : Places) : Places := List.zipWith (· || ·) s t

/-- Move every place over the character after it, when that belongs to the character set. -/
def advance (cs : CharSet) (text : List Char) (s : Places) : Places :=
  false :: List.zipWith (fun c here ↦ here && cs.mem c) text s

/-- The characters on both sides of each place of a text. -/
def surroundings (before : Option Char) : List Char → List (Option Char × Option Char)
  | [] => [(before, none)]
  | c :: cs => (before, some c) :: surroundings (some c) cs

/-- Keep the places at which an assertion holds. -/
def filter (a : Assertion) (text : List Char) (s : Places) : Places :=
  List.zipWith (fun (x : Option Char × Option Char) here ↦ here && a.holds x.1 x.2)
    (surroundings none text) s

/-- Apply a step a number of times. Once it changes nothing, further rounds change nothing. -/
def iterate (step : Places → Places) : Nat → Places → Places
  | 0, s => s
  | n + 1, s =>
    let t := step s
    if t = s then s else iterate step n t

/-- Add what a step reaches, in at most the given number of rounds, until nothing new comes. -/
def close (step : Places → Places) : Nat → Places → Places
  | 0, s => s
  | n + 1, s =>
    let t := s.union (step s)
    if t = s then s else close step n t

end Places

namespace Expr

/-- The places at which a match ends that starts at one of the given places. -/
def ends (text : List Char) : Expr → Places → Places
  | .empty, s => s
  | .chars cs, s => s.advance cs text
  | .assert a, s => s.filter a text
  | .seq e f, s => ends text f (ends text e s)
  | .alt e f, s => (ends text e s).union (ends text f s)
  | .group _ e, s => ends text e s
  | .repeat e least most _, s =>
    let rounds :=
      match most with
      | some m => m - least
      | none => text.length + 1
    Places.close (ends text e) rounds (Places.iterate (ends text e) least s)

/-- Whether some stretch of the text matches. -/
def occurs (e : Expr) (text : List Char) : Bool :=
  (ends text e (List.replicate (text.length + 1) true)).any id

end Expr

end DeviceSnapshot
