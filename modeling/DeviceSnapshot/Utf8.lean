/-!
# Reading UTF-8

Bytes are cut into segments: the characters they encode, and stretches that belong to no character.
A stretch is the longest beginning of a character that the bytes at its place form, or a single byte
when no character begins with it; the byte that breaks a character off starts the next segment.

The reader keeps the character that is open: how many bytes it still lacks, which values the next
of them may have, and the bits so far. The bounds on the second byte rule out encodings that are
longer than needed, surrogates, and code points that are too large, so every completed character is
encoded in the only correct way.
-/

namespace DeviceSnapshot

namespace Utf8

/-! ## Segments -/

/-- A stretch of bytes. -/
inductive Segment where
  | char (c : Char)
  /-- So many bytes that do not begin a character, or begin one that breaks off. -/
  | invalid (length : Nat)
  /-- So many bytes at the end of the input that begin a character. -/
  | incomplete (length : Nat)
  deriving DecidableEq

/-- A character whose bytes have not all been read. -/
structure Open where
  /-- The number of bytes that are missing. -/
  missing : Nat
  /-- The least value of the next byte. -/
  low : Nat
  /-- The greatest value of the next byte. -/
  high : Nat
  /-- The bits of the code point so far. -/
  bits : Nat
  /-- The number of bytes so far. -/
  length : Nat
  deriving DecidableEq

/-- Begin a character with its first byte. -/
def enter (b : Nat) : List Segment × Option Open :=
  if b < 0x80 then ([.char (Char.ofNat b)], none)
  else if 0xC2 ≤ b ∧ b ≤ 0xDF then ([], some ⟨1, 0x80, 0xBF, b - 0xC0, 1⟩)
  else if b = 0xE0 then ([], some ⟨2, 0xA0, 0xBF, 0, 1⟩)
  else if b = 0xED then ([], some ⟨2, 0x80, 0x9F, 0xD, 1⟩)
  else if 0xE1 ≤ b ∧ b ≤ 0xEF then ([], some ⟨2, 0x80, 0xBF, b - 0xE0, 1⟩)
  else if b = 0xF0 then ([], some ⟨3, 0x90, 0xBF, 0, 1⟩)
  else if 0xF1 ≤ b ∧ b ≤ 0xF3 then ([], some ⟨3, 0x80, 0xBF, b - 0xF0, 1⟩)
  else if b = 0xF4 then ([], some ⟨3, 0x80, 0x8F, 4, 1⟩)
  else ([.invalid 1], none)

/-- Read one byte: the segments that it completes, and the character that is open after it. -/
def step : Option Open → Nat → List Segment × Option Open
  | none, b => enter b
  | some p, b =>
    if p.low ≤ b ∧ b ≤ p.high then
      let bits := p.bits * 64 + (b - 0x80)
      if p.missing ≤ 1 then ([.char (Char.ofNat bits)], none)
      else ([], some ⟨p.missing - 1, 0x80, 0xBF, bits, p.length + 1⟩)
    else
      let (segments, next) := enter b
      (.invalid p.length :: segments, next)

/-- The segments of bytes that go on with an open character. -/
def segmentsFrom : Option Open → List UInt8 → List Segment
  | none, [] => []
  | some p, [] => [.incomplete p.length]
  | p, b :: bs => (step p b.toNat).1 ++ segmentsFrom (step p b.toNat).2 bs

/-- The segments of bytes. -/
def segments (bs : List UInt8) : List Segment := segmentsFrom none bs

/-! ## Text -/

/-- Why bytes are not the encoding of a text. The index counts the bytes before the fault. -/
inductive Fault where
  | invalid (length index : Nat)
  | incomplete (index : Nat)
  deriving DecidableEq

/-- The message of a fault. -/
def Fault.message : Fault → String
  | .invalid length index =>
    "invalid utf-8 sequence of " ++ toString length ++ " bytes from index " ++ toString index
  | .incomplete index => "incomplete utf-8 byte sequence from index " ++ toString index

/-- The characters of segments, or the first fault. -/
def chars (index : Nat) : List Segment → Except Fault (List Char)
  | [] => .ok []
  | .char c :: ss => (chars (index + c.utf8Size) ss).map (c :: ·)
  | .invalid length :: _ => .error (.invalid length index)
  | .incomplete _ :: _ => .error (.incomplete index)

/-- The text that bytes encode. -/
def decode (bs : List UInt8) : Except Fault String := (chars 0 (segments bs)).map String.ofList

/-- A character of a segment, with the replacement character for a fault. -/
def Segment.lossy : Segment → Char
  | .char c => c
  | .invalid _ | .incomplete _ => '\ufffd'

/-- The text of bytes with one replacement character for every fault. -/
def decodeLossy (bs : List UInt8) : String := String.ofList ((segments bs).map Segment.lossy)

end Utf8

end DeviceSnapshot
