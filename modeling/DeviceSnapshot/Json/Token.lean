import DeviceSnapshot.Hexadecimal
import DeviceSnapshot.Json.Number

/-!
# The tokens of JSON text

Text is first cut into tokens: brackets, braces, commas, colons, strings, and the other scalars as
the values they stand for. Blanks (space, tab, line feed, carriage return) separate tokens and are
otherwise ignored. A string stands apart from the other scalars because it may also name a member.

A string may hold every character from the space on except the quote and the backslash, which are
escaped, as any other character may be. An escape by number writes one UTF-16 unit; a character
outside the basic plane takes two, a high and a low surrogate, and a surrogate on its own is
refused.
-/

namespace DeviceSnapshot

/-- A token of JSON text. -/
inductive Token where
  | beginArray
  | endArray
  | beginObject
  | endObject
  | comma
  | colon
  | string (s : String)
  | scalar (v : Json)

namespace Token

/-! ## Strings -/

/-- The UTF-16 unit that four hexadecimal digits write. -/
def unit? (a b c d : Char) : Option Nat := hexNumber? [a, b, c, d]

/-- The character of a high and a low surrogate. -/
def pairChar? (high low : Nat) : Option Char :=
  if 0xD800 ≤ high ∧ high < 0xDC00 ∧ 0xDC00 ≤ low ∧ low < 0xE000 then
    some (Char.ofNat (0x10000 + (high - 0xD800) * 0x400 + (low - 0xDC00)))
  else none

/-- The character that an escape of one letter stands for. -/
def shortEscape? : Char → Option Char
  | '"' => some '"'
  | '\\' => some '\\'
  | '/' => some '/'
  | 'b' => some '\x08'
  | 'f' => some '\x0c'
  | 'n' => some '\n'
  | 'r' => some '\r'
  | 't' => some '\t'
  | _ => none

/-- The rest of a string after its opening quote: the characters, appended to those already read
in reverse, and what follows the closing quote. A high surrogate that was just read waits for the
low one. -/
def readString? (read : List Char) (high : Option Nat) : List Char → Option (List Char × List Char)
  | '\\' :: 'u' :: a :: b :: c :: d :: cs =>
    match unit? a b c d, high with
    | none, _ => none
    | some u, some h => (pairChar? h u).bind fun x ↦ readString? (x :: read) none cs
    | some u, none =>
      if 0xD800 ≤ u ∧ u < 0xDC00 then readString? read (some u) cs
      else (codePoint? u).bind fun x ↦ readString? (x :: read) none cs
  | '\\' :: c :: cs =>
    if high.isSome then none
    else (shortEscape? c).bind fun x ↦ readString? (x :: read) none cs
  | '"' :: cs => if high.isSome then none else some (read.reverse, cs)
  | c :: cs => if high.isSome ∨ c < ' ' then none else readString? (c :: read) none cs
  | [] => none

/-! ## Cutting text into tokens -/

/-- A blank between tokens. -/
def isBlank (c : Char) : Bool := c == ' ' || c == '\t' || c == '\n' || c == '\r'

/-- The token at the front of a text that starts with a character which is not blank, and what
follows the token. -/
def next? (c : Char) (cs : List Char) : Option (Token × List Char) :=
  match c, cs with
  | '[', _ => some (beginArray, cs)
  | ']', _ => some (endArray, cs)
  | '\x7b', _ => some (beginObject, cs)
  | '\x7d', _ => some (endObject, cs)
  | ',', _ => some (comma, cs)
  | ':', _ => some (colon, cs)
  | '"', _ => (readString? [] none cs).map fun (s, rest) ↦ (string (String.ofList s), rest)
  | 'n', 'u' :: 'l' :: 'l' :: rest => some (scalar .null, rest)
  | 't', 'r' :: 'u' :: 'e' :: rest => some (scalar (.bool true), rest)
  | 'f', 'a' :: 'l' :: 's' :: 'e' :: rest => some (scalar (.bool false), rest)
  | _, _ => do
    let (literal, rest) ← NumberLiteral.read? (c :: cs)
    some (scalar (← literal.value?), rest)

/-! ## A token consumes text

These lemmas are what the recursion of `tokens?` rests on. -/

theorem length_readString? {read cs s rest : List Char} {high : Option Nat}
    (h : readString? read high cs = some (s, rest)) : rest.length < cs.length := by
  fun_induction readString? read high cs with
  | case1 | case5 | case7 | case9 | case11 => simp at h
  | case2 _ _ _ _ _ _ _ _ _ ih =>
    obtain ⟨x, -, hx⟩ := Option.bind_eq_some_iff.1 h
    have := ih x hx
    simp only [List.length_cons]
    omega
  | case3 _ _ _ _ _ _ _ _ _ ih =>
    have := ih h
    simp only [List.length_cons]
    omega
  | case4 _ _ _ _ _ _ _ _ _ ih =>
    obtain ⟨x, -, hx⟩ := Option.bind_eq_some_iff.1 h
    have := ih x hx
    simp only [List.length_cons]
    omega
  | case6 _ _ _ _ _ _ ih =>
    obtain ⟨x, -, hx⟩ := Option.bind_eq_some_iff.1 h
    have := ih x hx
    simp only [List.length_cons]
    omega
  | case8 => simp_all
  | case10 _ _ _ _ _ _ _ _ ih =>
    have := ih h
    simp only [List.length_cons]
    omega

private theorem length_spanDigits (cs : List Char) :
    (NumberLiteral.spanDigits cs).2.length ≤ cs.length :=
  (List.dropWhile_suffix _).length_le

private theorem length_spanDigits_add (cs : List Char) :
    (NumberLiteral.spanDigits cs).1.length + (NumberLiteral.spanDigits cs).2.length
      = cs.length := by
  simp only [NumberLiteral.spanDigits, ← List.length_append, List.takeWhile_append_dropWhile]

private theorem length_readFraction? {cs rest : List Char} {f : Option (List Char)}
    (h : NumberLiteral.readFraction? cs = some (f, rest)) : rest.length ≤ cs.length := by
  unfold NumberLiteral.readFraction? at h
  split at h
  · next cs =>
    have := length_spanDigits cs
    grind
  · grind

private theorem length_readSign (cs : List Char) :
    (NumberLiteral.readSign cs).2.length ≤ cs.length := by
  unfold NumberLiteral.readSign
  split <;> simp

private theorem length_readExponentDigits? {cs rest : List Char} {e : Option (Bool × List Char)}
    (h : NumberLiteral.readExponentDigits? cs = some (e, rest)) : rest.length ≤ cs.length := by
  have := length_readSign cs
  have := length_spanDigits (NumberLiteral.readSign cs).2
  unfold NumberLiteral.readExponentDigits? at h
  grind

private theorem length_readExponent? {cs rest : List Char} {e : Option (Bool × List Char)}
    (h : NumberLiteral.readExponent? cs = some (e, rest)) : rest.length ≤ cs.length := by
  unfold NumberLiteral.readExponent? at h
  split at h
  · have := length_readExponentDigits? h
    simp only [List.length_cons]
    omega
  · have := length_readExponentDigits? h
    simp only [List.length_cons]
    omega
  · grind

private theorem length_readUnsigned? {negative : Bool} {cs rest : List Char} {n : NumberLiteral}
    (h : NumberLiteral.readUnsigned? negative cs = some (n, rest)) : rest.length < cs.length := by
  have hspan := length_spanDigits_add cs
  simp only [NumberLiteral.readUnsigned?] at h
  split at h
  · simp at h
  · next hw =>
    simp only [Option.bind_eq_bind, Option.bind_eq_some_iff, Prod.exists] at h
    obtain ⟨f, cs₁, hf, e, cs₂, he, h⟩ := h
    have := length_readFraction? hf
    have := length_readExponent? he
    have := List.length_pos_iff.2 fun h₀ ↦ hw (.inl h₀)
    simp only [Option.some.injEq, Prod.mk.injEq] at h
    obtain ⟨-, rfl⟩ := h
    omega

theorem length_next? {c : Char} {cs rest : List Char} {t : Token}
    (h : next? c cs = some (t, rest)) : rest.length ≤ cs.length := by
  unfold next? at h
  split at h
  case h_7 =>
    obtain ⟨⟨s, r⟩, hs, h⟩ := Option.map_eq_some_iff.1 h
    have := length_readString? hs
    simp only [Prod.mk.injEq] at h
    obtain ⟨-, rfl⟩ := h
    omega
  case h_11 =>
    simp only [Option.bind_eq_bind, Option.bind_eq_some_iff, Prod.exists] at h
    obtain ⟨n, r, hn, v, -, h⟩ := h
    simp only [Option.some.injEq, Prod.mk.injEq] at h
    obtain ⟨-, rfl⟩ := h
    unfold NumberLiteral.read? at hn
    split at hn
    · next heq =>
      have := length_readUnsigned? hn
      simp only [List.cons.injEq] at heq
      rw [heq.2]
      omega
    · have := length_readUnsigned? hn
      simp only [List.length_cons] at this
      omega
  case h_8 | h_9 | h_10 =>
    simp only [Option.some.injEq, Prod.mk.injEq] at h
    obtain ⟨-, rfl⟩ := h
    simp only [List.length_cons]
    omega
  all_goals
    simp only [Option.some.injEq, Prod.mk.injEq] at h
    obtain ⟨-, rfl⟩ := h
    exact Nat.le_refl _

/-- The tokens of a text, or nothing when it cannot be cut. -/
def tokens? (cs : List Char) : Option (List Token) :=
  match cs with
  | [] => some []
  | c :: cs =>
    if isBlank c then tokens? cs
    else
      match h : next? c cs with
      | none => none
      | some (t, rest) =>
        have := length_next? h
        (tokens? rest).map (t :: ·)
termination_by cs.length

end Token

end DeviceSnapshot
