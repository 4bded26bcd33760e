import DeviceSnapshot.Binary64.Basic
import DeviceSnapshot.Keyed

/-!
# JSON values

Numbers come in two kinds. An integer that fits a signed or an unsigned 64-bit word is kept
exactly; every other number is a finite floating-point number. The two kinds never compare equal,
since they are written differently.

The members of an object are a keyed list. Values that were read or built by this library keep the
members in key order at every level, which is the predicate `Json.Ordered`.
-/

namespace DeviceSnapshot

/-- An integer that fits a signed or an unsigned 64-bit word. -/
structure WordInt where
  val : Int
  /-- It is at least `-2 ^ 63`. -/
  lower : -0x8000000000000000 ≤ val
  /-- It is less than `2 ^ 64`. -/
  upper : val < 0x10000000000000000
  deriving DecidableEq

/-- The integer, when it fits. -/
def WordInt.ofInt? (n : Int) : Option WordInt :=
  if h : -0x8000000000000000 ≤ n ∧ n < 0x10000000000000000 then some ⟨n, h.1, h.2⟩ else none

inductive Json where
  | null
  | bool (b : Bool)
  | int (n : WordInt)
  | float (x : Binary64)
  | str (s : String)
  | arr (items : List Json)
  | obj (members : List (String × Json))

namespace Json

/-! ## Kinds -/

/-- The six kinds of JSON value. -/
inductive Kind where
  | null | boolean | number | string | array | object
  deriving DecidableEq

def Kind.name : Kind → String
  | .null => "null"
  | .boolean => "boolean"
  | .number => "number"
  | .string => "string"
  | .array => "array"
  | .object => "object"

def kind : Json → Kind
  | .null => .null
  | .bool _ => .boolean
  | .int _ | .float _ => .number
  | .str _ => .string
  | .arr _ => .array
  | .obj _ => .object

/-! ## Parts -/

def str? : Json → Option String
  | .str s => some s
  | _ => none

def arr? : Json → Option (List Json)
  | .arr items => some items
  | _ => none

def obj? : Json → Option (Keyed Json)
  | .obj members => some members
  | _ => none

/-! ## Measures and the order of members -/

mutual

/-- How deep arrays and objects nest; a scalar has depth `0`, an empty container depth `1`. -/
def depth : Json → Nat
  | .arr items => depthItems items + 1
  | .obj members => depthMembers members + 1
  | _ => 0

def depthItems : List Json → Nat
  | [] => 0
  | v :: vs => max (depth v) (depthItems vs)

def depthMembers : List (String × Json) → Nat
  | [] => 0
  | (_, v) :: ms => max (depth v) (depthMembers ms)

end

mutual

/-- At every level the members of an object are in key order. -/
def Ordered : Json → Prop
  | .arr items => OrderedItems items
  | .obj members => Keyed.Ordered members ∧ OrderedMembers members
  | _ => True

def OrderedItems : List Json → Prop
  | [] => True
  | v :: vs => Ordered v ∧ OrderedItems vs

def OrderedMembers : List (String × Json) → Prop
  | [] => True
  | (_, v) :: ms => Ordered v ∧ OrderedMembers ms

end

mutual

def decidableOrdered : (v : Json) → Decidable (Ordered v)
  | .null | .bool _ | .int _ | .float _ | .str _ => .isTrue trivial
  | .arr items => decidableOrderedItems items
  | .obj members => @instDecidableAnd _ _ inferInstance (decidableOrderedMembers members)

def decidableOrderedItems : (items : List Json) → Decidable (OrderedItems items)
  | [] => .isTrue trivial
  | v :: vs => @instDecidableAnd _ _ (decidableOrdered v) (decidableOrderedItems vs)

def decidableOrderedMembers : (ms : List (String × Json)) → Decidable (OrderedMembers ms)
  | [] => .isTrue trivial
  | (_, v) :: ms => @instDecidableAnd _ _ (decidableOrdered v) (decidableOrderedMembers ms)

end

instance (v : Json) : Decidable v.Ordered := decidableOrdered v

theorem orderedItems_iff {items : List Json} :
    OrderedItems items ↔ ∀ v ∈ items, Ordered v := by
  induction items with
  | nil => simp [OrderedItems]
  | cons v vs ih => simp [OrderedItems, ih]

theorem orderedMembers_iff {members : List (String × Json)} :
    OrderedMembers members ↔ ∀ e ∈ members, Ordered e.2 := by
  induction members with
  | nil => simp [OrderedMembers]
  | cons e ms ih => simp [OrderedMembers, ih]

end Json

end DeviceSnapshot
