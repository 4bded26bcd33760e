/-!
# TOML values

What a TOML document says, as far as a reader of configuration asks. Texts, tables and arrays are
kept in full. Of a floating-point number it is kept whether it is in range, and a point in time
keeps nothing, since no configuration here holds one; both are read and checked all the same.
-/

namespace DeviceSnapshot

inductive Toml where
  | string (s : String)
  | integer (n : Int)
  | float (inRange : Bool)
  | boolean (b : Bool)
  | dateTime
  | array (items : List Toml)
  | table (entries : List (String × Toml))

namespace Toml

def string? : Toml → Option String
  | .string s => some s
  | _ => none

def array? : Toml → Option (List Toml)
  | .array items => some items
  | _ => none

/-! ## Numbers that a reader can hold -/

mutual

/-- All integers fit a signed or an unsigned word of the given size, and all floating-point numbers
are in range. -/
def fits (bits : Nat) : Toml → Bool
  | .integer n => -((1 <<< (bits - 1) : Nat) : Int) ≤ n && n < ((1 <<< bits : Nat) : Int)
  | .float inRange => inRange
  | .array items => fitsItems bits items
  | .table entries => fitsEntries bits entries
  | _ => true

def fitsItems (bits : Nat) : List Toml → Bool
  | [] => true
  | v :: vs => fits bits v && fitsItems bits vs

def fitsEntries (bits : Nat) : List (String × Toml) → Bool
  | [] => true
  | (_, v) :: es => fits bits v && fitsEntries bits es

end

end Toml

end DeviceSnapshot
