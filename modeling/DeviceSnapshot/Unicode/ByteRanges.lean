/-!
# Code points as sequences of bytes

In UTF-8 a range of code points becomes several sequences of byte ranges. A sequence stands for all
ways to choose one byte from each of its ranges, and this is a range of code points only where the
bytes after the first ragged one run through all their values. So the range is cut first where the
number of bytes changes and around the surrogates, and then, unless its characters are single bytes,
at multiples of 64, 64² and 64³.
-/

namespace DeviceSnapshot

/-- Bytes from `first` to `last`. -/
structure ByteRange where
  first : Nat
  last : Nat
  deriving DecidableEq

namespace ByteRange

/-- The code points that are encoded in one, two, three and four bytes; those in three lie on both
sides of the surrogates. -/
def lengthClasses : List (Nat × Nat) :=
  [(0x0, 0x7F), (0x80, 0x7FF), (0x800, 0xD7FF), (0xE000, 0xFFFF), (0x10000, 0x10FFFF)]

/-- The last code point of the part to cut off first, when a range of code points of one length is
not yet a single sequence. Single bytes always are. -/
def cut? (first last : Nat) : Option Nat :=
  if last ≤ 0x7F then none
  else [0x40, 0x1000, 0x40000].findSome? fun block ↦
    if first / block = last / block then none
    else if first % block ≠ 0 then some (first / block * block + (block - 1))
    else if last % block ≠ block - 1 then some (last / block * block - 1)
    else none

/-- Cut a range at most so many times in a row. -/
def cutAll : Nat → Nat → Nat → List (Nat × Nat)
  | 0, first, last => [(first, last)]
  | fuel + 1, first, last =>
    match cut? first last with
    | some c => cutAll fuel first c ++ cutAll fuel (c + 1) last
    | none => [(first, last)]

def bytes (n : Nat) : List Nat := (String.utf8EncodeChar (Char.ofNat n)).map UInt8.toNat

/-- The sequences for a range of code points, in increasing order. A range is cut at each of its
ends at most once for each of the three block sizes. -/
def sequences (first last : Nat) : List (List ByteRange) :=
  lengthClasses.flatMap fun (low, high) ↦
    let first := max first low
    let last := min last high
    if first ≤ last then
      (cutAll 6 first last).map fun (a, b) ↦ List.zipWith ByteRange.mk (bytes a) (bytes b)
    else []

/-- Sequences that start alike and stand next to each other, gathered under their first range. -/
def gather : List (List ByteRange) → List (ByteRange × List (List ByteRange))
  | [] => []
  | [] :: ss => gather ss
  | (r :: s) :: ss =>
    match gather ss with
    | (r', rests) :: gs => if r = r' then (r, s :: rests) :: gs else (r, [s]) :: (r', rests) :: gs
    | [] => [(r, [s])]

end ByteRange

end DeviceSnapshot
