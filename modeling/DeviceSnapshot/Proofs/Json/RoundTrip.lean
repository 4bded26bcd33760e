import DeviceSnapshot.Proofs.Json.Reading
import DeviceSnapshot.Proofs.Json.Scalar

/-!
# Printed values read back

The text of a printable value reads as that value (`decode?_pretty`), in two steps with the tokens
of the value between them. The text is cut into these tokens wherever the blanks are, and reading
them puts the value into its place. Both steps are about a value with more behind it, text or
tokens, which is what lets them be composed along the value.
-/

namespace DeviceSnapshot

namespace Json

/-! ## The tokens of a value -/

mutual

def toTokens : Json → List Token
  | .null => [.scalar .null]
  | .bool b => [.scalar (.bool b)]
  | .int n => [.scalar (.int n)]
  | .float x => [.scalar (.float x)]
  | .str s => [.string s]
  | .arr [] => [.beginArray, .endArray]
  | .arr (v :: vs) => .beginArray :: toTokens v ++ itemTokens vs ++ [.endArray]
  | .obj [] => [.beginObject, .endObject]
  | .obj ((k, v) :: ms) =>
    .beginObject :: .string k :: .colon :: toTokens v ++ memberTokens ms ++ [.endObject]

def itemTokens : List Json → List Token
  | [] => []
  | v :: vs => .comma :: toTokens v ++ itemTokens vs

def memberTokens : List (String × Json) → List Token
  | [] => []
  | (k, v) :: ms => .comma :: .string k :: .colon :: toTokens v ++ memberTokens ms

end

/-! ## Cutting the text of a value -/

section Cutting

open Token NumberLiteral

variable {rest : List Char}

theorem tokens?_line (sp : Spacing) (d : Nat) (rest : List Char) :
    tokens? (sp.line d ++ rest) = tokens? rest := by
  have hspaces : ∀ n, tokens? (List.replicate n ' ' ++ rest) = tokens? rest := by
    intro n
    induction n with
    | zero => rfl
    | succ n ih => rw [List.replicate_succ, List.cons_append, tokens?_blank rfl, ih]
  cases sp with
  | compact => rfl
  | pretty => rw [Spacing.line, List.cons_append, tokens?_blank rfl, hspaces]

theorem tokens?_colon (sp : Spacing) (rest : List Char) :
    tokens? (sp.colon ++ rest) = (tokens? rest).map (.colon :: ·) := by
  cases sp with
  | compact => exact tokens?_next rfl rfl
  | pretty =>
    rw [Spacing.colon, List.cons_append, tokens?_next rfl rfl, List.singleton_append,
      tokens?_blank rfl]

theorem stops_line (sp : Spacing) (d : Nat) (h : Stops rest) : Stops (sp.line d ++ rest) := by
  cases sp with
  | compact => exact h
  | pretty => exact stops_cons (by decide)

theorem stops_writeItems (sp : Spacing) (d : Nat) (vs : List Json) (h : Stops rest) :
    Stops (writeItems sp d vs ++ rest) := by
  cases vs with
  | nil => exact h
  | cons v vs =>
    rw [writeItems]
    exact stops_cons (by decide)

theorem stops_writeMembers (sp : Spacing) (d : Nat) (ms : List (String × Json))
    (h : Stops rest) : Stops (writeMembers sp d ms ++ rest) := by
  cases ms with
  | nil => exact h
  | cons e ms =>
    rw [writeMembers]
    exact stops_cons (by decide)

mutual

/-- **The text of a value is cut into its tokens.** -/
theorem tokens?_write (sp : Spacing) : ∀ (v : Json) (d : Nat) {rest : List Char}, v.FloatFree →
    Stops rest → tokens? (write sp d v ++ rest) = (tokens? rest).map (toTokens v ++ ·)
  | .null, d, rest, _, _ => tokens?_next rfl rfl
  | .bool true, d, rest, _, _ => tokens?_next rfl rfl
  | .bool false, d, rest, _, _ => tokens?_next rfl rfl
  | .int n, d, rest, _, hrest => tokens?_text n hrest
  | .float x, d, rest, hfloat, _ => hfloat.elim
  | .str s, d, rest, _, _ => tokens?_quote s rest
  | .arr [], d, rest, _, _ => by
    rw [write, List.cons_append, tokens?_next rfl rfl, List.singleton_append,
      tokens?_next rfl rfl, Option.map_map]
    rfl
  | .arr (v :: vs), d, rest, hfloat, hrest => by
    -- Behind the last element come blanks and the bracket, and no number goes on with these.
    have hend : Stops (sp.line d ++ (']' :: rest)) := stops_line sp d (stops_cons (by decide))
    have hv := tokens?_write sp v (d + 1) hfloat.1 (stops_writeItems sp (d + 1) vs hend)
    have hvs := tokens?_writeItems sp vs (d + 1) hfloat.2 hend
    rw [write]
    simp only [List.cons_append, List.append_assoc, List.nil_append]
    rw [tokens?_next rfl rfl, tokens?_line, hv, hvs, tokens?_line, tokens?_next rfl rfl]
    simp only [Option.map_map, Function.comp_def, toTokens, List.cons_append, List.append_assoc,
      List.nil_append]
  | .obj [], d, rest, _, _ => by
    rw [write, List.cons_append, tokens?_next rfl rfl, List.singleton_append,
      tokens?_next rfl rfl, Option.map_map]
    rfl
  | .obj ((k, v) :: ms), d, rest, hfloat, hrest => by
    have hend : Stops (sp.line d ++ ('\x7d' :: rest)) := stops_line sp d (stops_cons (by decide))
    have hv := tokens?_write sp v (d + 1) hfloat.1
      (stops_writeMembers sp (d + 1) ms hend)
    have hms := tokens?_writeMembers sp ms (d + 1) hfloat.2 hend
    rw [write]
    simp only [List.cons_append, List.append_assoc, List.nil_append]
    rw [tokens?_next rfl rfl, tokens?_line, tokens?_quote, tokens?_colon, hv, hms, tokens?_line,
      tokens?_next rfl rfl]
    simp only [Option.map_map, Function.comp_def, toTokens, List.cons_append, List.append_assoc,
      List.nil_append]

theorem tokens?_writeItems (sp : Spacing) : ∀ (vs : List Json) (d : Nat) {rest : List Char},
    FloatFreeItems vs → Stops rest →
      tokens? (writeItems sp d vs ++ rest) = (tokens? rest).map (itemTokens vs ++ ·)
  | [], d, rest, _, _ => by simp [writeItems, itemTokens]
  | v :: vs, d, rest, hfloat, hrest => by
    have hv := tokens?_write sp v d hfloat.1 (stops_writeItems sp d vs hrest)
    have hvs := tokens?_writeItems sp vs d hfloat.2 hrest
    rw [writeItems]
    simp only [List.cons_append, List.append_assoc]
    rw [tokens?_next rfl rfl, tokens?_line, hv, hvs]
    simp only [Option.map_map, Function.comp_def, itemTokens, List.cons_append, List.append_assoc]

theorem tokens?_writeMembers (sp : Spacing) : ∀ (ms : List (String × Json)) (d : Nat)
    {rest : List Char}, FloatFreeMembers ms → Stops rest →
      tokens? (writeMembers sp d ms ++ rest) = (tokens? rest).map (memberTokens ms ++ ·)
  | [], d, rest, _, _ => by simp [writeMembers, memberTokens]
  | (k, v) :: ms, d, rest, hfloat, hrest => by
    have hv := tokens?_write sp v d hfloat.1 (stops_writeMembers sp d ms hrest)
    have hms := tokens?_writeMembers sp ms d hfloat.2 hrest
    rw [writeMembers]
    simp only [List.cons_append, List.append_assoc]
    rw [tokens?_next rfl rfl, tokens?_line, tokens?_quote, tokens?_colon, hv, hms]
    simp only [Option.map_map, Function.comp_def, memberTokens, List.cons_append,
      List.append_assoc]

end

end Cutting

/-! ## Reading the tokens of a value -/

namespace Reader

variable {outer : List Frame} {ts : List Token}

theorem run_beginArray (h : outer.length < maxDepth) :
    run (.anyValue outer) (.beginArray :: ts) = run (.firstItem outer) ts := by
  rw [run, step, start, if_pos h]

theorem run_beginObject (h : outer.length < maxDepth) :
    run (.anyValue outer) (.beginObject :: ts) = run (.firstName outer) ts := by
  rw [run, step, start, if_pos h]

theorem run_nextItem (items : List Json) :
    run (.afterItem items outer) (.comma :: ts) = run (.anyValue (.item items :: outer)) ts := rfl

theorem run_firstMember (k : String) :
    run (.firstName outer) (.string k :: .colon :: ts)
      = run (.anyValue (.member [] k :: outer)) ts := rfl

theorem run_nextMember (members : Keyed Json) (k : String) :
    run (.afterMember members outer) (.comma :: .string k :: .colon :: ts)
      = run (.anyValue (.member members k :: outer)) ts := rfl

theorem exists_toTokens (v : Json) : ∃ t us, toTokens v = t :: us ∧ t ≠ .endArray := by
  match v with
  | .null | .bool _ | .int _ | .float _ | .str _ | .arr [] | .arr (_ :: _) | .obj []
  | .obj (_ :: _) => exact ⟨_, _, rfl, by simp⟩

theorem run_firstItem (v : Json) :
    run (.firstItem outer) (toTokens v ++ ts)
      = run (.anyValue (.item [] :: outer)) (toTokens v ++ ts) := by
  obtain ⟨t, us, hus, ht⟩ := exists_toTokens v
  have hstep : step (.firstItem outer) t = start (.item [] :: outer) t := by
    cases t with
    | endArray => exact absurd rfl ht
    | _ => rfl
  rw [hus, List.cons_append, run, run, hstep]
  rfl

mutual

/-- **The tokens of a value put the value into its place.** -/
theorem run_toTokens : ∀ (v : Json) (outer : List Frame) (ts : List Token),
    Fits outer.length v → run (.anyValue outer) (toTokens v ++ ts) = run (place v outer) ts
  | .null, outer, ts, _ | .bool _, outer, ts, _ | .int _, outer, ts, _ | .float _, outer, ts, _
  | .str _, outer, ts, _ => rfl
  | .arr [], outer, ts, h => by
    have hlt := (fits_arr_iff.mp h).1
    rw [toTokens, List.cons_append, run_beginArray hlt]
    rfl
  | .arr (v :: vs), outer, ts, h => by
    obtain ⟨hlt, hitems⟩ := fits_arr_iff.mp h
    obtain ⟨hv, hvs⟩ := List.forall_mem_cons.mp hitems
    have hfirst := run_toTokens v (.item [] :: outer) (itemTokens vs ++ .endArray :: ts) hv
    have hrest := run_itemTokens vs [v] outer (.endArray :: ts) hvs
    rw [toTokens]
    simp only [List.cons_append, List.append_assoc, List.nil_append]
    -- The first element, the others behind it in reverse, and the end of the array.
    rw [run_beginArray hlt, run_firstItem, hfirst, place, hrest, run, step, List.reverse_append,
      List.reverse_reverse]
    rfl
  | .obj [], outer, ts, h => by
    have hlt := (fits_obj_iff.mp h).1
    rw [toTokens, List.cons_append, run_beginObject hlt]
    rfl
  | .obj ((k, v) :: ms), outer, ts, h => by
    obtain ⟨hlt, hkeys, hmembers⟩ := fits_obj_iff.mp h
    obtain ⟨hv, hms⟩ := List.forall_mem_cons.mp hmembers
    have hfirst := run_toTokens v (.member [] k :: outer) (memberTokens ms ++ .endObject :: ts) hv
    have hrest := run_memberTokens ms [(k, v)] outer (.endObject :: ts) hkeys hms
    rw [toTokens]
    simp only [List.cons_append, List.append_assoc, List.nil_append]
    rw [run_beginObject hlt, run_firstMember, hfirst, place, Keyed.insert, hrest, run, step]
    rfl

theorem run_itemTokens : ∀ (vs items : List Json) (outer : List Frame) (ts : List Token),
    (∀ v ∈ vs, Fits (outer.length + 1) v) →
      run (.afterItem items outer) (itemTokens vs ++ ts)
        = run (.afterItem (vs.reverse ++ items) outer) ts
  | [], items, outer, ts, _ => rfl
  | v :: vs, items, outer, ts, h => by
    obtain ⟨hv, hvs⟩ := List.forall_mem_cons.mp h
    have hfirst := run_toTokens v (.item items :: outer) (itemTokens vs ++ ts) hv
    have hrest := run_itemTokens vs (v :: items) outer ts hvs
    rw [itemTokens]
    simp only [List.cons_append, List.append_assoc]
    rw [run_nextItem, hfirst, place, hrest, List.reverse_cons, List.append_assoc,
      List.singleton_append]

theorem run_memberTokens : ∀ (ms : List (String × Json)) (members : Keyed Json)
    (outer : List Frame) (ts : List Token), Keyed.Ordered (members ++ ms) →
      (∀ e ∈ ms, Fits (outer.length + 1) e.2) →
      run (.afterMember members outer) (memberTokens ms ++ ts)
        = run (.afterMember (members ++ ms) outer) ts
  | [], members, outer, ts, _, _ => by rw [List.append_nil, memberTokens, List.nil_append]
  | (k, v) :: ms, members, outer, ts, hkeys, h => by
    obtain ⟨hv, hms⟩ := List.forall_mem_cons.mp h
    have hfirst := run_toTokens v (.member members k :: outer) (memberTokens ms ++ ts) hv
    -- The members are in order, so each of them is put behind those before it.
    have hlast : Keyed.insert members k v = members ++ [(k, v)] :=
      Keyed.insert_eq_append v fun k' hk' ↦
        (Keyed.ordered_append_iff.mp hkeys).2.2 k' hk' k List.mem_cons_self
    have hsplit : members ++ [(k, v)] ++ ms = members ++ (k, v) :: ms := by simp
    have hrest := run_memberTokens ms (members ++ [(k, v)]) outer ts (hsplit.symm ▸ hkeys) hms
    rw [memberTokens]
    simp only [List.cons_append, List.append_assoc]
    rw [run_nextMember, hfirst, place, hlast, hrest, hsplit]

end

end Reader

/-! ## Round trip -/

theorem tokens?_pretty {v : Json} (h : v.FloatFree) :
    Token.tokens? v.pretty.toList = some (toTokens v) := by
  have hwrite := tokens?_write .pretty v 0 h NumberLiteral.stops_nil
  have hnil : Token.tokens? [] = some [] := by rw [Token.tokens?]
  rw [hnil, List.append_nil, Option.map_some, List.append_nil] at hwrite
  rw [pretty, String.toList_ofList, hwrite]

/-- **A printed value reads back.** -/
theorem decode?_pretty {v : Json} (h : Printable 0 v) : decode? v.pretty = some v := by
  have hrun : Reader.run (.anyValue []) (toTokens v) = some (.complete v) := by
    have hplace := Reader.run_toTokens v [] [] h.toFits
    rw [List.append_nil] at hplace
    exact hplace
  rw [decode?, tokens?_pretty h.floatFree, Option.bind_some, ofTokens?, hrun]
  rfl

end Json

end DeviceSnapshot
