import DeviceSnapshot.Json.Decode
import DeviceSnapshot.Proofs.Json.Spelling
import DeviceSnapshot.Proofs.Keyed

/-!
# Documents

A document is the text of a value before it is read: its scalars are spelled, its members stand in
the order in which they are written, and a name may come again. The value that it writes is found
along the document (`Document.read?`), and this is what reading its text gives
(`Document.decode?_text`). So a statement about texts becomes one about documents.

## Order

Reordering the members of objects, at any depth and any number of times, does not change the value,
provided that no object has two members with one name (`Document.Reordered.read?_eq`). The members
of an object are read one by one, each for itself, so only the list of what was read is reordered;
and members go into an object in key order, whatever order they come in.
-/

namespace DeviceSnapshot

namespace Json

open Spelling

/-- A value as it is written. -/
inductive Document where
  | scalar (a : Atom)
  | arr (items : List Document)
  | obj (members : List (Quoted × Document))

namespace Document

/-! ## Text and value -/

mutual

/-- A document as it is written, without blanks. -/
def chars : Document → List Char
  | .scalar a => a.text
  | .arr [] => ['[', ']']
  | .arr (d :: ds) => '[' :: chars d ++ itemChars ds ++ [']']
  | .obj [] => ['\x7b', '\x7d']
  | .obj ((q, d) :: ms) => '\x7b' :: q.text ++ ':' :: chars d ++ memberChars ms ++ ['\x7d']

def itemChars : List Document → List Char
  | [] => []
  | d :: ds => ',' :: chars d ++ itemChars ds

def memberChars : List (Quoted × Document) → List Char
  | [] => []
  | (q, d) :: ms => ',' :: q.text ++ ':' :: chars d ++ memberChars ms

end

def text (d : Document) : String := String.ofList d.chars

mutual

/-- The value of a document inside the given number of containers, if it can be read. -/
def read? (n : Nat) : Document → Option Json
  | .scalar a => a.value?
  | .arr items => if n < maxDepth then (readItems? (n + 1) items).map .arr else none
  | .obj members =>
    if n < maxDepth then (readMembers? (n + 1) members).map fun es ↦ .obj (Keyed.ofList es)
    else none

def readItems? (n : Nat) : List Document → Option (List Json)
  | [] => some []
  | d :: ds => (read? n d).bind fun v ↦ (readItems? n ds).map (v :: ·)

def readMembers? (n : Nat) : List (Quoted × Document) → Option (List (String × Json))
  | [] => some []
  | (q, d) :: ms =>
    q.value?.bind fun k ↦ (read? n d).bind fun v ↦ (readMembers? n ms).map ((k, v) :: ·)

end

end Document

/-! ## Reading the text of a document -/

namespace Reader

open Token NumberLiteral

variable {outer : List Frame} {rest cs : List Char} {r : Reader}

/-- Cut a text into tokens and read them. -/
def readText (r : Reader) (cs : List Char) : Option Reader := (tokens? cs).bind (run r)

theorem readText_of_tokens? {t : Option Token}
    (h : tokens? cs = t.bind fun t ↦ (tokens? rest).map (t :: ·)) (r : Reader) :
    readText r cs = t.bind fun t ↦ (step r t).bind fun r' ↦ readText r' rest := by
  rw [readText, h]
  cases t with
  | none => rfl
  | some t =>
    cases hrest : tokens? rest with
    | none => cases step r t <;> simp [readText, hrest]
    | some ts =>
      rw [Option.bind_some, Option.bind_some, Option.map_some, Option.bind_some, run]
      cases step r t <;> simp [readText, hrest]

theorem readText_next {c : Char} {t : Token} (hc : isBlank c = false)
    (h : next? c cs = some (t, rest)) (r : Reader) :
    readText r (c :: cs) = (step r t).bind fun r' ↦ readText r' rest :=
  readText_of_tokens? (t := some t) (tokens?_next hc h) r

theorem readText_quoted (q : Quoted) (r : Reader) (rest : List Char) : readText r (q.text ++ rest)
    = q.value?.bind fun s ↦ (step r (.string s)).bind fun r' ↦ readText r' rest := by
  have htokens : tokens? (q.text ++ rest)
      = (q.value?.map Token.string).bind fun t ↦ (tokens? rest).map (t :: ·) := by
    rw [q.tokens?_text, Option.bind_map]
    rfl
  rw [readText_of_tokens? htokens, Option.bind_map]
  rfl

theorem stops_itemChars (ds : List Document) (h : Stops rest) :
    Stops (Document.itemChars ds ++ rest) := by
  cases ds with
  | nil => exact h
  | cons d ds =>
    rw [Document.itemChars]
    exact stops_cons (by decide)

theorem stops_memberChars (ms : List (Quoted × Document)) (h : Stops rest) :
    Stops (Document.memberChars ms ++ rest) := by
  cases ms with
  | nil => exact h
  | cons m ms =>
    rw [Document.memberChars]
    exact stops_cons (by decide)

theorem token?_bind_start (a : Atom) (outer : List Frame) :
    a.token?.bind (start outer) = a.value?.map fun v ↦ place v outer := by
  cases a with
  | null | bool b => rfl
  | number n =>
    rw [Atom.token?, Atom.value?]
    cases n.literal.value? <;> rfl
  | string q =>
    rw [Atom.token?, Atom.value?]
    cases q.value? <;> rfl

theorem token?_ne_endArray (a : Atom) : a.token? ≠ some .endArray := by
  cases a with
  | null | bool b => simp [Atom.token?]
  | number n => cases h : n.literal.value? <;> simp [Atom.token?, h]
  | string q => cases h : q.value? <;> simp [Atom.token?, h]

theorem readText_atom (a : Atom) (h : Stops rest) (outer : List Frame) :
    readText (.anyValue outer) (a.text ++ rest)
      = a.value?.bind fun v ↦ readText (place v outer) rest := by
  have hstart := token?_bind_start a outer
  rw [readText_of_tokens? (a.tokens?_text h)]
  change (a.token?.bind fun t ↦ (start outer t).bind fun r' ↦ readText r' rest) = _
  rw [← Option.bind_assoc, hstart, Option.bind_map]
  rfl

theorem readText_endArray (items : List Json) (outer : List Frame) (rest : List Char) :
    readText (.afterItem items outer) (']' :: rest)
      = readText (place (.arr items.reverse) outer) rest := by
  rw [readText_next rfl rfl]
  rfl

theorem readText_endObject (members : Keyed Json) (outer : List Frame) (rest : List Char) :
    readText (.afterMember members outer) ('\x7d' :: rest)
      = readText (place (.obj members) outer) rest := by
  rw [readText_next rfl rfl]
  rfl

theorem readText_colon (members : Keyed Json) (name : String) (outer : List Frame)
    (rest : List Char) : readText (.afterName members name outer) (':' :: rest)
      = readText (.anyValue (.member members name :: outer)) rest := by
  rw [readText_next rfl rfl]
  rfl

theorem readText_firstItem (d : Document) (h : Stops rest) :
    readText (.firstItem outer) (d.chars ++ rest)
      = readText (.anyValue (.item [] :: outer)) (d.chars ++ rest) := by
  match d with
  | .scalar a =>
    rw [Document.chars, readText_of_tokens? (a.tokens?_text h),
      readText_of_tokens? (a.tokens?_text h)]
    cases htoken : a.token? with
    | none => rfl
    | some t =>
      have ht : t ≠ .endArray := by
        rintro rfl
        exact token?_ne_endArray a htoken
      have hstep : step (.firstItem outer) t = step (.anyValue (.item [] :: outer)) t := by
        cases t with
        | endArray => exact absurd rfl ht
        | _ => rfl
      rw [Option.bind_some, Option.bind_some, hstep]
  | .arr [] | .arr (_ :: _) | .obj [] | .obj (_ :: _) =>
    simp only [Document.chars, List.cons_append]
    rw [readText_next rfl rfl, readText_next rfl rfl]
    rfl

mutual

/-- **The text of a document puts its value into its place,** or cannot be read. -/
theorem readText_chars : ∀ (d : Document) (outer : List Frame) {rest : List Char}, Stops rest →
    readText (.anyValue outer) (d.chars ++ rest)
      = (d.read? outer.length).bind fun v ↦ readText (place v outer) rest
  | .scalar a, outer, rest, h => by
    rw [Document.chars, Document.read?]
    exact readText_atom a h outer
  | .arr [], outer, rest, h => by
    simp only [Document.chars, List.cons_append, List.nil_append]
    rw [readText_next rfl rfl, step, start, Document.read?]
    split
    · rw [Option.bind_some, readText_next rfl rfl]
      rfl
    · rfl
  | .arr (d :: ds), outer, rest, h => by
    have hend : Stops (']' :: rest) := stops_cons (by decide)
    have hfirst := readText_chars d (.item [] :: outer) (stops_itemChars ds hend)
    simp only [Document.chars, List.cons_append, List.append_assoc, List.nil_append]
    rw [readText_next rfl rfl, step, start, Document.read?]
    split
    · rw [Option.bind_some, readText_firstItem d (stops_itemChars ds hend), hfirst,
        Document.readItems?, Option.bind_map, Option.bind_assoc]
      refine congrArg _ (funext fun v ↦ ?_)
      rw [place, readText_itemChars ds [v] outer hend, Option.bind_map]
      simp [Function.comp_def, readText_endArray]
    · rfl
  | .obj [], outer, rest, h => by
    simp only [Document.chars, List.cons_append, List.nil_append]
    rw [readText_next rfl rfl, step, start, Document.read?]
    split
    · rw [Option.bind_some, readText_next rfl rfl]
      rfl
    · rfl
  | .obj ((q, d) :: ms), outer, rest, h => by
    have hend : Stops ('\x7d' :: rest) := stops_cons (by decide)
    have hfirst := fun k ↦ readText_chars d (.member [] k :: outer) (stops_memberChars ms hend)
    simp only [Document.chars, List.cons_append, List.append_assoc, List.nil_append]
    rw [readText_next rfl rfl, step, start, Document.read?]
    split
    · rw [Option.bind_some, readText_quoted, Document.readMembers?, Option.bind_map,
        Option.bind_assoc]
      refine congrArg _ (funext fun k ↦ ?_)
      rw [step, Option.bind_some, readText_colon, hfirst, Option.bind_assoc]
      refine congrArg _ (funext fun v ↦ ?_)
      rw [place, readText_memberChars ms _ outer hend, Option.bind_map]
      simp [Function.comp_def, readText_endObject, Keyed.ofList, Keyed.insertAll]
    · rfl

theorem readText_itemChars : ∀ (ds : List Document) (items : List Json) (outer : List Frame)
    {rest : List Char}, Stops rest →
    readText (.afterItem items outer) (Document.itemChars ds ++ rest)
      = (Document.readItems? (outer.length + 1) ds).bind fun vs ↦
        readText (.afterItem (vs.reverse ++ items) outer) rest
  | [], items, outer, rest, h => rfl
  | d :: ds, items, outer, rest, h => by
    have hfirst := readText_chars d (.item items :: outer) (stops_itemChars ds h)
    rw [Document.itemChars, Document.readItems?]
    simp only [List.cons_append, List.append_assoc]
    rw [readText_next rfl rfl, step, Option.bind_some, hfirst, Option.bind_assoc]
    refine congrArg _ (funext fun v ↦ ?_)
    rw [place, readText_itemChars ds (v :: items) outer h, Option.bind_map]
    simp only [Function.comp_def, List.reverse_cons, List.append_assoc, List.singleton_append]

theorem readText_memberChars : ∀ (ms : List (Quoted × Document)) (members : Keyed Json)
    (outer : List Frame) {rest : List Char}, Stops rest →
    readText (.afterMember members outer) (Document.memberChars ms ++ rest)
      = (Document.readMembers? (outer.length + 1) ms).bind fun es ↦
        readText (.afterMember (Keyed.insertAll members es) outer) rest
  | [], members, outer, rest, h => rfl
  | (q, d) :: ms, members, outer, rest, h => by
    have hfirst := fun k ↦ readText_chars d (.member members k :: outer) (stops_memberChars ms h)
    rw [Document.memberChars, Document.readMembers?]
    simp only [List.cons_append, List.append_assoc]
    rw [readText_next rfl rfl, step, Option.bind_some, readText_quoted, Option.bind_assoc]
    refine congrArg _ (funext fun k ↦ ?_)
    rw [step, Option.bind_some, readText_colon, hfirst, Option.bind_assoc]
    refine congrArg _ (funext fun v ↦ ?_)
    rw [place, readText_memberChars ms _ outer h, Option.bind_map]
    simp [Function.comp_def, Keyed.insertAll]

end

end Reader

namespace Document

variable {d d' : Document} {n : Nat}

/-- **The text of a document reads as its value.** -/
theorem decode?_text (d : Document) : decode? d.text = d.read? 0 := by
  have hread := Reader.readText_chars d [] NumberLiteral.stops_nil
  have hnil : ∀ r, Reader.readText r [] = some r := by
    intro r
    rw [Reader.readText, Token.tokens?]
    rfl
  rw [List.append_nil, Reader.readText] at hread
  have hcomplete : decode? d.text
      = ((Token.tokens? d.chars).bind (Reader.run (.anyValue []))).bind Reader.value? := by
    rw [decode?, text, String.toList_ofList, Option.bind_assoc]
    rfl
  rw [hcomplete, hread, Option.bind_assoc]
  cases d.read? 0 with
  | none => rfl
  | some v => simp [Reader.place, hnil, Reader.value?]

/-! ## Reordering members -/

/-- In every object of a document no two members have one name. -/
inductive DistinctNames : Document → Prop
  | scalar (a : Atom) : DistinctNames (.scalar a)
  | arr {items : List Document} (h : ∀ d ∈ items, DistinctNames d) : DistinctNames (.arr items)
  | obj {members : List (Quoted × Document)}
    (hnames : (members.filterMap fun m ↦ m.1.value?).Nodup)
    (h : ∀ m ∈ members, DistinctNames m.2) : DistinctNames (.obj members)

/-- A document with the members of some objects in another order. -/
inductive Reordered : Document → Document → Prop
  | refl (d : Document) : Reordered d d
  | members {ms ms' : List (Quoted × Document)} (h : ms.Perm ms') : Reordered (.obj ms) (.obj ms')
  | inItem {d d' : Document} (before after : List Document) (h : Reordered d d') :
    Reordered (.arr (before ++ d :: after)) (.arr (before ++ d' :: after))
  | inMember {d d' : Document} (before after : List (Quoted × Document)) (q : Quoted)
    (h : Reordered d d') :
    Reordered (.obj (before ++ (q, d) :: after)) (.obj (before ++ (q, d') :: after))
  | trans {d d' d'' : Document} (h : Reordered d d') (h' : Reordered d' d'') : Reordered d d''

theorem Reordered.distinctNames (h : Reordered d d') (hd : d.DistinctNames) : d'.DistinctNames := by
  induction h with
  | refl => exact hd
  | members h =>
    cases hd with
    | obj hnames hall =>
      exact .obj ((h.filterMap _).nodup_iff.mp hnames) fun m hm ↦ hall m (h.mem_iff.mpr hm)
  | inItem before after h ih =>
    cases hd with
    | arr hall =>
      rw [List.forall_mem_append, List.forall_mem_cons] at hall
      refine .arr ?_
      rw [List.forall_mem_append, List.forall_mem_cons]
      exact ⟨hall.1, ih hall.2.1, hall.2.2⟩
  | inMember before after q h ih =>
    cases hd with
    | obj hnames hall =>
      rw [List.forall_mem_append, List.forall_mem_cons] at hall
      refine .obj ?_ ?_
      · rwa [List.filterMap_append, List.filterMap_cons] at hnames ⊢
      · rw [List.forall_mem_append, List.forall_mem_cons]
        exact ⟨hall.1, ih hall.2.1, hall.2.2⟩
  | trans _ _ ih ih' => exact ih' (ih hd)

/-! ## Reading in any order -/

variable {ms ms' : List (Quoted × Document)} {es : List (String × Json)}

theorem readMembers?_cons_eq_some_iff {q : Quoted} :
    readMembers? n ((q, d) :: ms) = some es ↔ ∃ k v es', q.value? = some k ∧ d.read? n = some v ∧
      readMembers? n ms = some es' ∧ es = (k, v) :: es' := by
  rw [readMembers?]
  simp only [Option.bind_eq_some_iff, Option.map_eq_some_iff]
  constructor
  · rintro ⟨k, hk, v, hv, es', hes, rfl⟩
    exact ⟨k, v, es', hk, hv, hes, rfl⟩
  · rintro ⟨k, v, es', hk, hv, hes, rfl⟩
    exact ⟨k, hk, v, hv, es', hes, rfl⟩

theorem keys_of_readMembers? (h : readMembers? n ms = some es) :
    Keyed.keys es = ms.filterMap fun m ↦ m.1.value? := by
  induction ms generalizing es with
  | nil =>
    rw [readMembers?] at h
    rw [← Option.some.inj h]
    rfl
  | cons m ms ih =>
    obtain ⟨k, v, es', hk, -, hes, rfl⟩ := readMembers?_cons_eq_some_iff.mp h
    rw [Keyed.keys_cons, ih hes, List.filterMap_cons, hk]

/-- Members are read each for itself, so what is read comes in the order of the members. -/
theorem exists_perm_of_readMembers? (hperm : ms.Perm ms') (h : readMembers? n ms = some es) :
    ∃ es', readMembers? n ms' = some es' ∧ es.Perm es' := by
  induction hperm generalizing es with
  | nil => exact ⟨es, h, .refl es⟩
  | cons m _ ih =>
    obtain ⟨k, v, es', hk, hv, hes, rfl⟩ := readMembers?_cons_eq_some_iff.mp h
    obtain ⟨es'', hes', hperm⟩ := ih hes
    exact ⟨_, readMembers?_cons_eq_some_iff.mpr ⟨k, v, es'', hk, hv, hes', rfl⟩, hperm.cons _⟩
  | swap m m' ms =>
    obtain ⟨k, v, es', hk, hv, hes, rfl⟩ := readMembers?_cons_eq_some_iff.mp h
    obtain ⟨k', v', es'', hk', hv', hes', rfl⟩ := readMembers?_cons_eq_some_iff.mp hes
    have hrest := readMembers?_cons_eq_some_iff.mpr ⟨k, v, es'', hk, hv, hes', rfl⟩
    exact ⟨_, readMembers?_cons_eq_some_iff.mpr ⟨k', v', _, hk', hv', hrest, rfl⟩, .swap _ _ _⟩
  | trans _ _ ih ih' =>
    obtain ⟨es', hes', hperm⟩ := ih h
    obtain ⟨es'', hes'', hperm'⟩ := ih' hes'
    exact ⟨es'', hes'', hperm.trans hperm'⟩

theorem read?_obj_of_perm (hperm : ms.Perm ms')
    (hnames : (ms.filterMap fun m ↦ m.1.value?).Nodup) (n : Nat) :
    (obj ms).read? n = (obj ms').read? n := by
  rw [read?, read?]
  congr 1
  cases h : readMembers? (n + 1) ms with
  | none =>
    cases h' : readMembers? (n + 1) ms' with
    | none => rfl
    | some es' =>
      obtain ⟨es, hes, -⟩ := exists_perm_of_readMembers? hperm.symm h'
      rw [h] at hes
      cases hes
  | some es =>
    obtain ⟨es', hes', hes⟩ := exists_perm_of_readMembers? hperm h
    have hkeys : (Keyed.keys es).Nodup := keys_of_readMembers? h ▸ hnames
    rw [hes', Option.map_some, Option.map_some, Keyed.ofList_eq_of_perm hes hkeys]

theorem readItems?_congr (h : d.read? n = d'.read? n) (before after : List Document) :
    readItems? n (before ++ d :: after) = readItems? n (before ++ d' :: after) := by
  induction before with
  | nil => rw [List.nil_append, List.nil_append, readItems?, readItems?, h]
  | cons e before ih =>
    rw [List.cons_append, List.cons_append, readItems?, readItems?, ih]

theorem readMembers?_congr (h : d.read? n = d'.read? n) (before after : List (Quoted × Document))
    (q : Quoted) : readMembers? n (before ++ (q, d) :: after)
      = readMembers? n (before ++ (q, d') :: after) := by
  induction before with
  | nil => rw [List.nil_append, List.nil_append, readMembers?, readMembers?, h]
  | cons m before ih =>
    rw [List.cons_append, List.cons_append, readMembers?, readMembers?, ih]

/-- **The order of members does not matter** for the value of a document. -/
theorem Reordered.read?_eq (h : Reordered d d') (hd : d.DistinctNames) (n : Nat) :
    d.read? n = d'.read? n := by
  induction h generalizing n with
  | refl => rfl
  | members h =>
    cases hd with
    | obj hnames _ => exact read?_obj_of_perm h hnames n
  | inItem before after h ih =>
    cases hd with
    | arr hall =>
      have hd := hall _ (List.mem_append_right before List.mem_cons_self)
      rw [read?, read?, readItems?_congr (ih hd (n + 1))]
  | inMember before after q h ih =>
    cases hd with
    | obj _ hall =>
      have hd := hall _ (List.mem_append_right before List.mem_cons_self)
      rw [read?, read?, readMembers?_congr (ih hd (n + 1))]
  | trans h h' ih ih' => rw [ih hd, ih' (h.distinctNames hd)]

end Document

end Json

end DeviceSnapshot
