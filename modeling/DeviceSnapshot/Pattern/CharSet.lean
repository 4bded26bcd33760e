import DeviceSnapshot.Unicode.Blank
import DeviceSnapshot.Unicode.CaseFold
import DeviceSnapshot.Unicode.Word

/-!
# Sets of characters

A set of characters is built from ranges and the three Unicode classes by the Boolean operations
and by closure under case. It stays a description: membership is decided by recursion on it, and no
table is expanded when a pattern is read.
-/

namespace DeviceSnapshot

inductive CharSet where
  /-- The characters from `first` to `last`. -/
  | range (first last : Char)
  /-- The decimal digits of all scripts. -/
  | digit
  /-- The blanks. -/
  | blank
  /-- The word characters. -/
  | word
  | union (s t : CharSet)
  | inter (s t : CharSet)
  | compl (s : CharSet)
  /-- The characters that are equal up to case to one in the set. -/
  | anyCase (s : CharSet)
  deriving DecidableEq

namespace CharSet

def mem : CharSet → Char → Bool
  | .range first last, c => first ≤ c && c ≤ last
  | .digit, c => isDecimalDigit c
  | .blank, c => isBlank c
  | .word, c => isWordChar c
  | .union s t, c => s.mem c || t.mem c
  | .inter s t, c => s.mem c && t.mem c
  | .compl s, c => !s.mem c
  | .anyCase s, c => (caseVariants c).any s.mem

def single (c : Char) : CharSet := .range c c

def empty : CharSet := .range '\x01' '\x00'

/-- The characters in one set and not in the other. -/
def diff (s t : CharSet) : CharSet := .inter s (.compl t)

/-- The characters in exactly one of two sets. -/
def symmDiff (s t : CharSet) : CharSet := .union (s.diff t) (t.diff s)

def unions : List CharSet → CharSet
  | [] => empty
  | [s] => s
  | s :: ss => .union s (unions ss)

/-- All characters but the line feed. -/
def notNewline : CharSet := .compl (single '\n')

def all : CharSet := .compl empty

@[simp] theorem mem_single_iff {c d : Char} : (single c).mem d = true ↔ d = c := by
  simp only [single, mem, Bool.and_eq_true, decide_eq_true_eq]
  exact ⟨fun h ↦ Char.le_antisymm h.2 h.1, fun h ↦ h ▸ ⟨Char.le_refl d, Char.le_refl d⟩⟩

@[simp] theorem mem_notNewline_iff {c : Char} : notNewline.mem c = true ↔ c ≠ '\n' := by
  rw [notNewline, mem, Bool.not_eq_true', ← Bool.not_eq_true, mem_single_iff]

end CharSet

end DeviceSnapshot
