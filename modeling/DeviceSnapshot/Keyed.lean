/-!
# Lists of values under text keys

A keyed list holds its entries in strictly increasing key order. Text is ordered by code points,
which is also the order of its UTF-8 bytes. Insertion puts a new key into its place and replaces
the value of a key that is already there, so the last value written under a key is the one kept,
and how a keyed list was filled does not show.

The functions are plain recursions on the list; that the order is kept is a lemma and not part of
the type, because values that hold lists of themselves are built from the bare list.
-/

namespace DeviceSnapshot

/-- Entries under text keys. -/
abbrev Keyed (α : Type) := List (String × α)

namespace Keyed

variable {α : Type}

def keys (m : Keyed α) : List String := m.map Prod.fst

/-- The keys are strictly increasing; in particular no key occurs twice. -/
def Ordered (m : Keyed α) : Prop := m.keys.Pairwise (· < ·)

instance (m : Keyed α) : Decidable m.Ordered := inferInstanceAs (Decidable (List.Pairwise _ _))

def get? : Keyed α → String → Option α
  | [], _ => none
  | (k', v) :: m, k => if k' = k then some v else get? m k

/-- Put a value under a key, at the key's place in the order. -/
def insert : Keyed α → String → α → Keyed α
  | [], k, v => [(k, v)]
  | (k', v') :: m, k, v =>
    if k = k' then (k, v) :: m
    else if k < k' then (k, v) :: (k', v') :: m
    else (k', v') :: insert m k v

/-- Insert entries one after the other. -/
def insertAll (m : Keyed α) (entries : List (String × α)) : Keyed α :=
  entries.foldl (fun m e ↦ insert m e.1 e.2) m

/-- The keyed list with the given entries; of two under one key the later is kept. -/
def ofList (entries : List (String × α)) : Keyed α := insertAll [] entries

/-! ## Reading after writing -/

@[simp] theorem keys_nil : keys ([] : Keyed α) = [] := rfl

@[simp] theorem keys_cons (k : String) (v : α) (m : Keyed α) :
    keys ((k, v) :: m) = k :: keys m := rfl

@[simp] theorem get?_nil (k : String) : get? ([] : Keyed α) k = none := rfl

@[simp] theorem ordered_nil : Ordered ([] : Keyed α) := List.Pairwise.nil

theorem ordered_cons_iff {k : String} {v : α} {m : Keyed α} :
    Ordered ((k, v) :: m) ↔ (∀ k' ∈ keys m, k < k') ∧ Ordered m :=
  List.pairwise_cons

theorem get?_eq_none_iff {m : Keyed α} {k : String} : get? m k = none ↔ k ∉ keys m := by
  induction m with
  | nil => simp
  | cons e m ih =>
    obtain ⟨k', v'⟩ := e
    by_cases h : k' = k
    · simp [get?, h]
    · simp [get?, h, ih, Ne.symm h]

@[simp] theorem get?_insert_self (m : Keyed α) (k : String) (v : α) :
    get? (insert m k v) k = some v := by
  induction m with
  | nil => simp [insert, get?]
  | cons e m ih =>
    obtain ⟨k', v'⟩ := e
    simp only [insert]
    split
    · simp [get?]
    · split
      · simp [get?]
      · next h _ => simp [get?, Ne.symm h, ih]

theorem get?_insert_of_ne {m : Keyed α} {k k' : String} (v : α) (h : k' ≠ k) :
    get? (insert m k v) k' = get? m k' := by
  induction m with
  | nil => simp [insert, get?, Ne.symm h]
  | cons e m ih =>
    obtain ⟨k₀, v₀⟩ := e
    simp only [insert]
    split
    · next h₀ => subst h₀; simp [get?, Ne.symm h]
    · split
      · simp [get?, Ne.symm h]
      · simp [get?, ih]

theorem mem_keys_insert {m : Keyed α} {k k' : String} {v : α} :
    k' ∈ keys (insert m k v) ↔ k' = k ∨ k' ∈ keys m := by
  induction m with
  | nil => simp [insert]
  | cons e m ih =>
    obtain ⟨k₀, v₀⟩ := e
    simp only [insert]
    split
    · next h₀ => subst h₀; simp
    · split
      · simp
      · simp only [keys_cons, List.mem_cons, ih]
        constructor
        · rintro (h | h | h) <;> simp [h]
        · rintro (h | h | h) <;> simp [h]

theorem lt_of_ne_of_not_lt {a b : String} (hne : a ≠ b) (hlt : ¬ a < b) : b < a :=
  String.not_le.1 fun h ↦ hne (String.le_antisymm h (String.not_lt.1 hlt))

theorem Ordered.insert {m : Keyed α} (h : Ordered m) (k : String) (v : α) :
    Ordered (Keyed.insert m k v) := by
  induction m with
  | nil => exact List.pairwise_singleton _ _
  | cons e m ih =>
    obtain ⟨k₀, v₀⟩ := e
    obtain ⟨hlt, hm⟩ := ordered_cons_iff.1 h
    simp only [Keyed.insert]
    split
    · next h₀ => subst h₀; exact ordered_cons_iff.2 ⟨hlt, hm⟩
    · split
      · next hk =>
        refine ordered_cons_iff.2 ⟨fun k' hk' ↦ ?_, h⟩
        rcases List.mem_cons.1 hk' with rfl | hk'
        · exact hk
        · exact String.lt_trans hk (hlt _ hk')
      · next hne hk =>
        refine ordered_cons_iff.2 ⟨fun k' hk' ↦ ?_, ih hm⟩
        rcases mem_keys_insert.1 hk' with rfl | hk'
        · exact lt_of_ne_of_not_lt hne hk
        · exact hlt _ hk'

theorem Ordered.insertAll {m : Keyed α} (h : Ordered m) (entries : List (String × α)) :
    Ordered (Keyed.insertAll m entries) := by
  induction entries generalizing m with
  | nil => exact h
  | cons e entries ih => exact ih (h.insert e.1 e.2)

theorem ordered_ofList (entries : List (String × α)) : Ordered (ofList entries) :=
  ordered_nil.insertAll entries

end Keyed

end DeviceSnapshot
