import DeviceSnapshot.Proofs.ByteOrder
import DeviceSnapshot.Proofs.Json.Scalar

/-!
# Names in a text

In which order the members of an object stand is a question about the text, so it is asked there.
`namesOf` goes through the characters of a text and collects, for every object, the names of its
members in the order in which they are written; it knows strings and braces and nothing else of
values. For a text that was printed this gives the keys of the objects in the value, object by
object (`namesOf_pretty`), and these are in key order.

All values are covered, those with floating-point numbers too: how a number is written does not
matter here, only that there is no quote and no brace in it.
-/

namespace DeviceSnapshot

namespace Json

open Token

/-! ## Collecting names -/

/-- The text goes on with a colon, so a string before it is a name. -/
def Named (rest : List Char) : Prop := (rest.dropWhile isBlank).head? = some ':'

instance (rest : List Char) : Decidable (Named rest) := inferInstanceAs (Decidable (_ = _))

/-- Add a name to the innermost open object. -/
def addName (name : List Char) : List (List String) → List (List String)
  | [] => []
  | names :: outer => (names ++ [String.ofList name]) :: outer

/-- The names in the objects of a text, object by object in the order in which they end. The
objects that are open at its start have the given names so far, the innermost object first. -/
def namesFrom (outer : List (List String)) : List Char → List (List String)
  | [] => []
  | '\x7b' :: cs => namesFrom ([] :: outer) cs
  | '\x7d' :: cs => outer.head?.toList ++ namesFrom outer.tail cs
  | '"' :: cs =>
    match h : readString? [] none cs with
    | none => []
    | some (s, rest) =>
      have := length_readString? h
      namesFrom (if Named rest then addName s outer else outer) rest
  | _ :: cs => namesFrom outer cs
termination_by cs => cs.length

def namesOf (text : String) : List (List String) := namesFrom [] text.toList

/-! ## Characters that do not matter -/

/-- A character that neither opens nor closes an object and starts no string. -/
def Plain (c : Char) : Prop := c ≠ '\x7b' ∧ c ≠ '\x7d' ∧ c ≠ '"'

instance (c : Char) : Decidable (Plain c) := inferInstanceAs (Decidable (_ ∧ _))

variable {outer : List (List String)} {cs rest : List Char}

theorem namesFrom_cons_of_plain {c : Char} (hc : Plain c) :
    namesFrom outer (c :: cs) = namesFrom outer cs := by
  obtain ⟨hopen, hclose, hquote⟩ := hc
  rw [namesFrom]
  · exact hopen
  · exact hclose
  · exact hquote

theorem namesFrom_append_of_plain (h : ∀ c ∈ cs, Plain c) :
    namesFrom outer (cs ++ rest) = namesFrom outer rest := by
  induction cs with
  | nil => rfl
  | cons c cs ih =>
    obtain ⟨hc, hcs⟩ := List.forall_mem_cons.mp h
    rw [List.cons_append, namesFrom_cons_of_plain hc, ih hcs]

theorem plain_of_eq_true {p : Char → Bool} {c : Char} (h : p c = true)
    (hp : p '\x7b' = false ∧ p '\x7d' = false ∧ p '"' = false) : Plain c := by
  refine ⟨?_, ?_, ?_⟩ <;>
  · rintro rfl
    simp [h] at hp

theorem plain_of_isDigit {c : Char} (h : c.isDigit = true) : Plain c :=
  plain_of_eq_true h (by decide)

theorem isBlank_of_mem_line (sp : Spacing) (d : Nat) : ∀ c ∈ sp.line d, isBlank c = true := by
  cases sp with
  | compact => simp [Spacing.line]
  | pretty =>
    rw [Spacing.line, List.forall_mem_cons]
    refine ⟨rfl, fun c hc ↦ ?_⟩
    rw [List.eq_of_mem_replicate hc]
    rfl

theorem plain_line (sp : Spacing) (d : Nat) : ∀ c ∈ sp.line d, Plain c := fun c hc ↦
  plain_of_eq_true (isBlank_of_mem_line sp d c hc) (by decide)

theorem plain_digits (n : Nat) : ∀ c ∈ Decimal.digits n, Plain c := fun _ hc ↦
  plain_of_isDigit (Decimal.isDigit_of_mem_digits hc)

theorem plain_text_int (n : WordInt) : ∀ c ∈ n.text, Plain c := by
  rw [WordInt.text]
  split
  · exact List.forall_mem_cons.mpr ⟨by decide, plain_digits _⟩
  · exact plain_digits _

theorem plain_text_decimal (d : Decimal) : ∀ c ∈ d.text, Plain c := by
  have hall : ∀ c ∈ ((Decimal.digits d.coefficient).reverse.dropWhile (· == '0')).reverse,
      Plain c := by
    intro c hc
    have hsuffix := (List.dropWhile_suffix _).subset (List.mem_reverse.mp hc)
    exact plain_digits d.coefficient c (List.mem_reverse.mp hsuffix)
  rw [Decimal.text]
  dsimp only
  generalize ((Decimal.digits d.coefficient).reverse.dropWhile (· == '0')).reverse = ds at hall ⊢
  generalize d.scale + ((Decimal.digits d.coefficient).length : Int) - 1 = e
  have hzeros : ∀ n, ∀ c ∈ List.replicate n '0', Plain c := by
    intro n c hc
    rw [List.eq_of_mem_replicate hc]
    decide
  have htake : ∀ n, ∀ c ∈ ds.take n, Plain c := fun n c hc ↦ hall c (List.mem_of_mem_take hc)
  have hdrop : ∀ n, ∀ c ∈ ds.drop n, Plain c := fun n c hc ↦ hall c (List.mem_of_mem_drop hc)
  split
  · have hrest : ∀ c ∈ if ds.drop (e.toNat + 1) = [] then ['0'] else ds.drop (e.toNat + 1),
        Plain c := by
      split
      · simp [Plain]
      · exact hdrop _
    simp only [List.forall_mem_append]
    exact ⟨⟨⟨htake _, hzeros _⟩, by simp [Plain]⟩, hrest⟩
  split
  · simp only [List.forall_mem_append]
    exact ⟨⟨by simp [Plain], hzeros _⟩, hall⟩
  · have hmantissa : ∀ c ∈ if ds.length ≤ 1 then ds else ds.take 1 ++ ['.'] ++ ds.drop 1,
        Plain c := by
      split
      · exact hall
      · simp only [List.forall_mem_append]
        exact ⟨⟨htake 1, by simp [Plain]⟩, hdrop 1⟩
    have hmark : ∀ c ∈ ['e', if e < 0 then '-' else '+'], Plain c := by split <;> simp [Plain]
    simp only [List.forall_mem_append]
    exact ⟨⟨hmantissa, hmark⟩, plain_digits _⟩

theorem plain_text_float (x : Binary64) : ∀ c ∈ x.text, Plain c := by
  have hmagnitude : ∀ c ∈ if x.isZero then ['0', '.', '0'] else x.shortest.text, Plain c := by
    split
    · simp [Plain]
    · exact plain_text_decimal _
  rw [Binary64.text]
  split
  · exact List.forall_mem_cons.mpr ⟨by decide, hmagnitude⟩
  · exact hmagnitude

/-! ## Strings -/

theorem not_named_cons {c : Char} (hblank : isBlank c = false) (hc : c ≠ ':') :
    ¬Named (c :: cs) := by
  simp [Named, hblank, hc]

theorem not_named_line (sp : Spacing) (d : Nat) (h : ¬Named rest) :
    ¬Named (sp.line d ++ rest) := by
  rwa [Named, List.dropWhile_append_of_pos (isBlank_of_mem_line sp d)]

theorem not_named_writeItems (sp : Spacing) (d : Nat) (vs : List Json) (h : ¬Named rest) :
    ¬Named (writeItems sp d vs ++ rest) := by
  cases vs with
  | nil => exact h
  | cons v vs =>
    rw [writeItems]
    exact not_named_cons rfl (by decide)

theorem not_named_writeMembers (sp : Spacing) (d : Nat) (ms : List (String × Json))
    (h : ¬Named rest) : ¬Named (writeMembers sp d ms ++ rest) := by
  cases ms with
  | nil => exact h
  | cons e ms =>
    rw [writeMembers]
    exact not_named_cons rfl (by decide)

theorem named_colon (sp : Spacing) (rest : List Char) : Named (sp.colon ++ rest) := by
  cases sp <;> rfl

theorem namesFrom_string {s : List Char} (h : readString? [] none cs = some (s, rest)) :
    namesFrom outer ('"' :: cs)
      = namesFrom (if Named rest then addName s outer else outer) rest := by
  rw [namesFrom]
  split
  · next hnone => rw [h] at hnone; cases hnone
  · next s' rest' hsome =>
    obtain ⟨rfl, rfl⟩ := Prod.mk.inj (Option.some.inj (h.symm.trans hsome))
    rfl

theorem namesFrom_quote (s : String) (h : ¬Named rest) :
    namesFrom outer (quote s ++ rest) = namesFrom outer rest := by
  rw [quote, List.cons_append, List.cons_append, namesFrom_string (readString?_quote s rest),
    if_neg h]

theorem namesFrom_name (sp : Spacing) (s : String) (names : List String) :
    namesFrom (names :: outer) (quote s ++ (sp.colon ++ rest))
      = namesFrom ((names ++ [s]) :: outer) rest := by
  have hcolon : ∀ c ∈ sp.colon, Plain c := by cases sp <;> simp [Spacing.colon, Plain]
  rw [quote, List.cons_append, List.cons_append, namesFrom_string (readString?_quote s _),
    if_pos (named_colon sp rest), addName, String.ofList_toList, namesFrom_append_of_plain hcolon]

/-! ## Values -/

mutual

/-- The names in the objects of a value, object by object, with the objects in the members of an
object before the object itself. -/
def objectNames : Json → List (List String)
  | .arr items => itemNames items
  | .obj members => memberNames members ++ [Keyed.keys members]
  | _ => []

def itemNames : List Json → List (List String)
  | [] => []
  | v :: vs => objectNames v ++ itemNames vs

def memberNames : List (String × Json) → List (List String)
  | [] => []
  | (_, v) :: ms => objectNames v ++ memberNames ms

end

theorem memberNames_eq_flatMap (ms : List (String × Json)) :
    memberNames ms = ms.flatMap fun e ↦ objectNames e.2 := by
  induction ms with
  | nil => rfl
  | cons e ms ih => rw [memberNames, ih, List.flatMap_cons]

theorem namesFrom_beginObject :
    namesFrom outer ('\x7b' :: cs) = namesFrom ([] :: outer) cs := by
  rw [namesFrom]

theorem namesFrom_endObject (names : List String) :
    namesFrom (names :: outer) ('\x7d' :: cs) = names :: namesFrom outer cs := by
  rw [namesFrom]
  rfl

mutual

/-- **The text of a value shows the names in its objects.** -/
theorem namesFrom_write (sp : Spacing) : ∀ (v : Json) (d : Nat) (outer : List (List String))
    {rest : List Char}, ¬Named rest →
      namesFrom outer (write sp d v ++ rest) = objectNames v ++ namesFrom outer rest
  | .null, d, outer, rest, _ | .bool true, d, outer, rest, _ | .bool false, d, outer, rest, _
  | .arr [], d, outer, rest, _ => by
    rw [write]
    exact namesFrom_append_of_plain (by simp [Plain])
  | .int n, d, outer, rest, _ => namesFrom_append_of_plain (plain_text_int n)
  | .float x, d, outer, rest, _ => namesFrom_append_of_plain (plain_text_float x)
  | .str s, d, outer, rest, h => namesFrom_quote s h
  | .arr (v :: vs), d, outer, rest, _ => by
    have hend : ¬Named (sp.line d ++ (']' :: rest)) :=
      not_named_line sp d (not_named_cons rfl (by decide))
    have hv := namesFrom_write sp v (d + 1) outer (not_named_writeItems sp (d + 1) vs hend)
    have hvs := namesFrom_writeItems sp vs (d + 1) outer hend
    rw [write]
    simp only [List.cons_append, List.append_assoc, List.nil_append]
    rw [namesFrom_cons_of_plain (by decide), namesFrom_append_of_plain (plain_line sp _), hv, hvs,
      namesFrom_append_of_plain (plain_line sp d), namesFrom_cons_of_plain (by decide),
      objectNames, itemNames, List.append_assoc]
  | .obj [], d, outer, rest, _ => by
    rw [write, List.cons_append, namesFrom_beginObject, List.cons_append, namesFrom_endObject]
    rfl
  | .obj ((k, v) :: ms), d, outer, rest, _ => by
    have hend : ¬Named (sp.line d ++ ('\x7d' :: rest)) :=
      not_named_line sp d (not_named_cons rfl (by decide))
    have hv := namesFrom_write sp v (d + 1) ([k] :: outer)
      (not_named_writeMembers sp (d + 1) ms hend)
    have hms := namesFrom_writeMembers sp ms (d + 1) [k] outer hend
    rw [write]
    simp only [List.cons_append, List.append_assoc, List.nil_append]
    rw [namesFrom_beginObject, namesFrom_append_of_plain (plain_line sp _), namesFrom_name,
      List.nil_append, hv, hms, namesFrom_append_of_plain (plain_line sp d), namesFrom_endObject,
      objectNames, memberNames, List.append_assoc, List.append_assoc, Keyed.keys_cons]
    rfl

theorem namesFrom_writeItems (sp : Spacing) : ∀ (vs : List Json) (d : Nat)
    (outer : List (List String)) {rest : List Char}, ¬Named rest →
      namesFrom outer (writeItems sp d vs ++ rest) = itemNames vs ++ namesFrom outer rest
  | [], d, outer, rest, _ => rfl
  | v :: vs, d, outer, rest, h => by
    have hv := namesFrom_write sp v d outer (not_named_writeItems sp d vs h)
    have hvs := namesFrom_writeItems sp vs d outer h
    rw [writeItems]
    simp only [List.cons_append, List.append_assoc]
    rw [namesFrom_cons_of_plain (by decide), namesFrom_append_of_plain (plain_line sp d), hv, hvs,
      itemNames, List.append_assoc]

theorem namesFrom_writeMembers (sp : Spacing) : ∀ (ms : List (String × Json)) (d : Nat)
    (names : List String) (outer : List (List String)) {rest : List Char}, ¬Named rest →
      namesFrom (names :: outer) (writeMembers sp d ms ++ rest)
        = memberNames ms ++ namesFrom ((names ++ Keyed.keys ms) :: outer) rest
  | [], d, names, outer, rest, _ => by
    rw [Keyed.keys_nil, List.append_nil]
    rfl
  | (k, v) :: ms, d, names, outer, rest, h => by
    have hv := namesFrom_write sp v d ((names ++ [k]) :: outer)
      (not_named_writeMembers sp d ms h)
    have hms := namesFrom_writeMembers sp ms d (names ++ [k]) outer h
    rw [writeMembers]
    simp only [List.cons_append, List.append_assoc]
    rw [namesFrom_cons_of_plain (by decide), namesFrom_append_of_plain (plain_line sp d),
      namesFrom_name, hv, hms, memberNames, List.append_assoc, List.append_assoc,
      List.singleton_append, Keyed.keys_cons]

end

/-- **The names that are printed are the keys of the value,** object by object and in the order of
the members. -/
theorem namesOf_pretty (v : Json) : namesOf v.pretty = v.objectNames := by
  have hend : ¬Named [] := by decide
  have hwrite := namesFrom_write .pretty v 0 [] hend
  rw [List.append_nil] at hwrite
  rw [namesOf, pretty, String.toList_ofList, hwrite, namesFrom, List.append_nil]

-- The names are those of the text, also when its members are in no order.
example : namesOf "\x7b\"b\": \x7b\"\\\"x\": [\"c\", 1]\x7d, \"a\": \":\x7d\"\x7d"
    = [["\"x"], ["b", "a"]] := by
  decide +kernel

/-! ## Order -/

mutual

theorem pairwise_of_mem_objectNames : ∀ (v : Json), v.Ordered →
    ∀ names ∈ v.objectNames, names.Pairwise (· < ·)
  | .null, _, _, h | .bool _, _, _, h | .int _, _, _, h | .float _, _, _, h
  | .str _, _, _, h => nomatch h
  | .arr items, hv, names, h => pairwise_of_mem_itemNames items hv names h
  | .obj members, ⟨hkeys, hmembers⟩, names, h => by
    rcases List.mem_append.mp h with h | h
    · exact pairwise_of_mem_memberNames members hmembers names h
    · rw [List.mem_singleton.mp h]
      exact hkeys

theorem pairwise_of_mem_itemNames : ∀ (vs : List Json), OrderedItems vs →
    ∀ names ∈ itemNames vs, names.Pairwise (· < ·)
  | [], _, _, h => nomatch h
  | v :: vs, ⟨hv, hvs⟩, names, h =>
    (List.mem_append.mp h).elim (pairwise_of_mem_objectNames v hv names)
      (pairwise_of_mem_itemNames vs hvs names)

theorem pairwise_of_mem_memberNames : ∀ (ms : List (String × Json)), OrderedMembers ms →
    ∀ names ∈ memberNames ms, names.Pairwise (· < ·)
  | [], _, _, h => nomatch h
  | (_, v) :: ms, ⟨hv, hms⟩, names, h =>
    (List.mem_append.mp h).elim (pairwise_of_mem_objectNames v hv names)
      (pairwise_of_mem_memberNames ms hms names)

end

end Json

end DeviceSnapshot
