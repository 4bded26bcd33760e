import DeviceSnapshot.Pattern.Literals
import Std.Data.HashMap

/-!
# The size of automata

A search may run an automaton over the bytes of a text in UTF-8, and a second one over the same
bytes in the opposite direction. Each is built from the short form of an expression, piece by piece,
and neither may take more than `maxAutomatonBytes`. A state takes 32 bytes. A state with a list of
transitions takes 8 more for each of them, and a fork, which leads on to several states without
reading anything, takes 4 more for each.

Only sizes are computed here. Because states are numbered in the order in which they are added, the
number of states so far stands for the automaton itself. The numbers matter: the states of a class
are shared through a table with few places, and which of them meet in one place depends on numbers.
-/

namespace DeviceSnapshot

/-- How large an automaton may be: ten times `2 ^ 20`. -/
def maxAutomatonBytes : Nat := 0xA00000

/-! ## Adding states -/

/-- How large an automaton under construction is. -/
structure AutomatonSize where
  states : Nat
  /-- The bytes that the states hold besides themselves. -/
  extra : Nat

def AutomatonSize.bytes (s : AutomatonSize) : Nat := 32 * s.states + s.extra

/-- A step of a construction; it fails where the automaton becomes too large. -/
abbrev Construction := StateT AutomatonSize Option

namespace Construction

/-- Add so many states, which hold so many bytes; the result is the number of the first. -/
def grow (states extra : Nat) : Construction Nat := fun s ↦
  let t : AutomatonSize := ⟨s.states + states, s.extra + extra⟩
  if t.bytes ≤ maxAutomatonBytes then some (s.states, t) else none

/-- How a piece of an automaton is left: through a fork, or through another state. -/
inductive Exit where
  | fork
  | plain

/-- Lead on from the exit of a piece. -/
def Exit.lead : Exit → Construction Unit
  | .fork => do let _ ← grow 0 4
  | .plain => pure ()

/-- Lead on from the exit of the piece before, when there is one. -/
def leadFrom : Option Exit → Construction Unit
  | some exit => exit.lead
  | none => pure ()

/-- So many copies of a piece in a row, after the piece before. -/
def copies (piece : Construction Exit) : Nat → Option Exit → Construction (Option Exit)
  | 0, before => pure before
  | n + 1, before => do
    let exit ← piece
    leadFrom before
    copies piece n (some exit)

/-- So many copies of a piece in a row, each of which may be left out together with those after
it. -/
def optionalCopies (piece : Construction Exit) : Nat → Option Exit → Construction Unit
  | 0, before => leadFrom before
  | n + 1, before => do
    let _ ← grow 1 8
    let exit ← piece
    leadFrom before
    optionalCopies piece n (some exit)

/-- A row of at least one piece, and otherwise an empty piece. -/
def orEmpty (row : Construction (Option Exit)) : Construction Exit := do
  match ← row with
  | some exit => pure exit
  | none => do
    let _ ← grow 1 0
    pure .plain

/-! ## Classes -/

/-- A table that remembers states. In each place it holds what the last state there was made from,
and its number. -/
abbrev Shared := Std.HashMap Nat (List Nat × Nat)

/-- The hash of a list of numbers: of each the bits are mixed in, and the whole is multiplied by a
prime, modulo `2 ^ 64`. -/
def mix (ns : List Nat) : UInt64 :=
  ns.foldl (fun h n ↦ (h ^^^ UInt64.ofNat n) * 1099511628211) 14695981039346656037

/-- The state that is made from some numbers: the one that the table, which has so many places,
still knows, and otherwise a new one. -/
def share (places : Nat) (made : List Nat) (extra : Nat) : StateT Shared Construction Nat := do
  let place := (mix made).toNat % places
  let add : StateT Shared Construction Nat := do
    let number ← grow 1 extra
    modify (·.insert place (made, number))
    pure number
  match (← get)[place]? with
  | some (made', number) => if made = made' then pure number else add
  | none => add

/-- The state from which sequences of byte ranges lead to a target. What two sequences begin with
is built once, and equal states are shared. -/
def forwardState (target : Nat) : Nat → List (List ByteRange) → StateT Shared Construction Nat
  | 0, _ => pure target
  | depth + 1, ss => do
    match ByteRange.gather ss with
    | [] => pure target
    | groups =>
      let made ← groups.mapM fun (r, rests) ↦ do
        let next ← forwardState target depth rests
        pure [r.first, r.last, next]
      share 10000 made.flatten (8 * made.length)

/-- The states of a sequence of byte ranges that is read from its end; what two sequences begin with
is shared. -/
def backwardStates (target : Nat) (s : List ByteRange) : StateT Shared Construction Nat :=
  s.foldlM (fun next r ↦ share 1000 [next, r.first, r.last] 0) target

/-- A class. Without characters outside of ASCII it needs a single list of transitions. -/
def ofChars (backward : Bool) (rs : CodeRanges) : Construction Exit := do
  if rs.all (·.2 ≤ 0x7F) then
    let _ ← grow 2 (8 * rs.length)
  else
    let ss := rs.flatMap fun (first, last) ↦ ByteRange.sequences first last
    if backward then
      let target ← grow 2 0
      let _ ← (ss.forM fun s ↦ do
        let _ ← backwardStates (target + 1) s
        let _ ← grow 0 4 : StateT Shared Construction Unit).run ∅
    else
      let target ← grow 1 0
      let _ ← (forwardState target 4 ss).run ∅
  pure .plain

/-! ## Alternatives that are literals -/

/-- The parts of a list between its empty members. -/
def segments : List (List Nat) → List (List (List Nat))
  | [] => [[]]
  | [] :: ls => [] :: segments ls
  | l :: ls =>
    match segments ls with
    | part :: parts => (l :: part) :: parts
    | [] => [[l]]

/-- The states and the bytes besides for literals that share what they begin with. The literals come
in the order of preference, so where one of them ends, those before it and those after it share
nothing. -/
def sharedLiterals : Nat → List (List Nat) → Nat × Nat
  | 0, _ => (0, 0)
  | fuel + 1, ls =>
    let ls := match ls with
      | [] :: rest => [] :: rest.dropWhile (· = [])
      | ls => ls
    let parts := segments ls
    let size (part : List (List Nat)) : Nat × Nat :=
      let firsts := (part.filterMap List.head?).eraseDups
      firsts.foldl (fun (states, extra) b ↦
        let rests := part.filterMap fun l ↦ if l.head? = some b then some l.tail else none
        let below := if rests.all List.isEmpty then (0, 0) else sharedLiterals fuel rests
        (states + below.1, extra + below.2))
        (1, if firsts.length = 1 then 0 else 8 * firsts.length)
    let filled := parts.filter (· ≠ [])
    filled.foldl (fun (states, extra) part ↦
      let below := size part
      (states + below.1, extra + below.2))
      (1, 4 * (filled.length + (parts.length - 1)))

/-- The bytes of a literal in the order in which they are read. -/
def literalBytes (backward : Bool) (cs : List Char) : List Nat :=
  let bytes := cs.flatMap fun c ↦ ByteRange.bytes c.toNat
  if backward then bytes.reverse else bytes

/-- The bytes of several forms, when all are literals. -/
def allLiterals? (backward : Bool) (fs : List Form) : Option (List (List Nat)) :=
  fs.mapM fun
    | .literal cs => some (literalBytes backward cs)
    | _ => none

/-! ## Forms -/

mutual

/-- The automaton of a form. -/
def ofForm (backward : Bool) : Form → Construction Exit
  | .empty | .assert _ => do
    let _ ← grow 1 0
    pure .plain
  | .literal cs => do
    let _ ← grow (literalBytes backward cs).length 0
    pure .plain
  | .chars rs => ofChars backward rs
  | .group _ f =>
    if backward then ofForm backward f
    else do
      let _ ← grow 1 0
      let exit ← ofForm backward f
      let _ ← grow 1 0
      exit.lead
      pure .plain
  | .concat fs =>
    orEmpty (if backward then ofRowBackward backward fs else ofRowForward backward fs none)
  | .alternation fs =>
    match allLiterals? backward fs with
    | some ls => do
      let (states, extra) := sharedLiterals (Form.total (ls.map List.length) + 1) ls
      let _ ← grow (states + 1) extra
      pure .plain
    | none => do
      ofAlternatives backward 0 fs
      pure .plain
  | .repeat f least none _ =>
    match least with
    | 0 =>
      if (f.minLength?).getD 0 = 0 then do
        let exit ← ofForm backward f
        let _ ← grow 3 16
        exit.lead
        pure .plain
      else do
        let _ ← grow 1 4
        let exit ← ofForm backward f
        exit.lead
        pure .fork
    | least + 1 => do
      let before ← copies (ofForm backward f) least none
      let exit ← ofForm backward f
      let _ ← grow 1 4
      leadFrom before
      exit.lead
      pure .fork
  | .repeat f least (some most) _ =>
    if least = 0 ∧ most = 1 then do
      let _ ← grow 1 0
      let exit ← ofForm backward f
      let _ ← grow 1 8
      exit.lead
      pure .plain
    else do
      let exit ← orEmpty (copies (ofForm backward f) least none)
      if least = most then pure exit
      else do
        let _ ← grow 1 0
        optionalCopies (ofForm backward f) (most - least) (some exit)
        pure .plain

/-- The automata of forms in a row, in the order of the forms. -/
def ofRowForward (backward : Bool) : List Form → Option Exit → Construction (Option Exit)
  | [], before => pure before
  | f :: fs, before => do
    let exit ← ofForm backward f
    leadFrom before
    ofRowForward backward fs (some exit)

/-- The automata of forms in a row, the last one first. -/
def ofRowBackward (backward : Bool) : List Form → Construction (Option Exit)
  | [] => pure none
  | f :: fs => do
    let before ← ofRowBackward backward fs
    let exit ← ofForm backward f
    leadFrom before
    pure (some exit)

/-- The automata of alternatives, after so many others. The first two come before the fork that
leads to all. -/
def ofAlternatives (backward : Bool) : Nat → List Form → Construction Unit
  | _, [] => pure ()
  | count, f :: fs => do
    let exit ← ofForm backward f
    exit.lead
    if count = 1 then
      let _ ← grow 2 8
    else if 1 < count then
      let _ ← grow 0 4
    ofAlternatives backward (count + 1) fs

end

/-- The automaton of a whole pattern. A loop before it looks for the place to start, unless all
matches begin at the start of the text or, read from its end, at the end. The forward one also notes
where a match begins and ends. -/
def ofWhole (backward : Bool) (f : Form) : Construction Unit := do
  let bound := if backward then f.endsWith .endText else f.beginsWith .startText
  if bound then
    let _ ← grow 1 0
  else
    let _ ← grow 3 16
  if backward then do
    let exit ← ofForm backward f
    exit.lead
  else do
    let _ ← grow 1 0
    let exit ← ofForm backward f
    let _ ← grow 1 0
    exit.lead
  let _ ← grow 1 0

end Construction

namespace Form

/-- Whether the automata of both directions stay within the limit. -/
def fits (f : Form) : Bool :=
  ((Construction.ofWhole true f).run ⟨0, 0⟩).isSome &&
    ((Construction.ofWhole false f).run ⟨0, 0⟩).isSome

end Form

/-! ## Expressions -/

namespace Expr

/-- An upper bound for the bytes of an automaton. A range of code points takes at most 24 sequences
of four byte ranges, and a single character one. -/
def sizeBound : Expr → Nat
  | .empty | .assert _ => 100
  | .chars (.range first last) => if first = last then 300 else 4000
  | .chars s => 4000 * s.rangeBound + 100
  | .seq e f => e.sizeBound + f.sizeBound
  | .alt e f => e.sizeBound + f.sizeBound + 100
  | .group _ e => e.sizeBound + 100
  | .repeat e least none _ => (max least 1) * e.sizeBound + 200
  | .repeat e _ (some most) _ => most * (e.sizeBound + 100) + 200

/-- Whether an expression is small enough to be searched for. The automata are measured only where
the bound leaves it open and where they are needed. -/
def fits (e : Expr) : Bool :=
  if e.sizeBound ≤ maxAutomatonBytes then true else e.short.fits || e.short.matchesFewLiterals

end Expr

end DeviceSnapshot
