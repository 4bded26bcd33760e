import DeviceSnapshot.Proofs.Table.Compiling
import Mathlib.Data.Set.Function

/-!
# The patterns of a table

A table as it is written holds its patterns as texts. Compiling reads them in one order, rule by
rule, and within a rule the one for keys before those of its actions. What a reader makes of each
text can be anything; given that, two things are told by the texts alone.

* Whether compiling fails, and with which pattern. Rules, actions and substitutions are read by
  functions of their own, and at each level the first text that is refused ends the reading. So
  what is proved of each of them is one relation between the texts it goes through and what comes of
  it (`ReadsInOrder`), which is kept when one reading follows another.
* What the compiled table does. The rule of a key and the substitution of a path are the first ones
  whose patterns occur there, and since compiling keeps the order (`TableSpec.compile_eq_ok_iff`),
  they are the first ones of the table as it is written.
-/

namespace DeviceSnapshot

/-! ## The first member with a property -/

section IsFirst

variable {α β : Type} {P : α → Prop} {x y : α} {xs ys : List α}

/-- The member has a property, and none before it does. -/
def IsFirst (P : α → Prop) (x : α) (xs : List α) : Prop :=
  ∃ before after, xs = before ++ x :: after ∧ P x ∧ ∀ y ∈ before, ¬P y

theorem isFirst_singleton (h : P x) : IsFirst P x [x] :=
  ⟨[], [], rfl, h, fun _ hy ↦ absurd hy List.not_mem_nil⟩

theorem IsFirst.mem (h : IsFirst P x xs) : x ∈ xs ∧ P x := by
  obtain ⟨before, after, rfl, hx, -⟩ := h
  exact ⟨List.mem_append_right _ List.mem_cons_self, hx⟩

theorem IsFirst.append_right (h : IsFirst P x xs) (ys : List α) : IsFirst P x (xs ++ ys) := by
  obtain ⟨before, after, rfl, hx, hbefore⟩ := h
  exact ⟨before, after ++ ys, by simp, hx, hbefore⟩

theorem IsFirst.append_left (h : IsFirst P x ys) (hxs : ∀ y ∈ xs, ¬P y) :
    IsFirst P x (xs ++ ys) := by
  obtain ⟨before, after, rfl, hx, hbefore⟩ := h
  exact ⟨xs ++ before, after, by simp, hx, List.forall_mem_append.mpr ⟨hxs, hbefore⟩⟩

/-- What a search finds is the first member with the property that is searched for. The property is
one of what the members stand for, such as rules for rules as they are written. -/
theorem find?_eq_some_iff_isFirst {f : α → β} {p : α → Bool} {P : β → Prop}
    (hf : Set.InjOn f {a | a ∈ xs}) (hp : ∀ a ∈ xs, p a = true ↔ P (f a)) :
    xs.find? p = some x ↔ x ∈ xs ∧ IsFirst P (f x) (xs.map f) := by
  have hnot : ∀ a ∈ xs, (!p a) = true ↔ ¬P (f a) := fun a ha ↦ by simp [← hp a ha]
  rw [List.find?_eq_some_iff_append]
  constructor
  · rintro ⟨hx, before, after, rfl, hbefore⟩
    have hmem : x ∈ before ++ x :: after := List.mem_append_right _ List.mem_cons_self
    refine ⟨hmem, before.map f, after.map f, by simp, (hp x hmem).mp hx, ?_⟩
    exact List.forall_mem_map.mpr fun a ha ↦
      (hnot a (List.mem_append_left _ ha)).mp (hbefore a ha)
  · rintro ⟨hx, before, after, hxs, hP, hbefore⟩
    obtain ⟨before, rest, rfl, rfl, hrest⟩ := List.map_eq_append_iff.mp hxs
    obtain ⟨x', after, rfl, heq, rfl⟩ := List.map_eq_cons_iff.mp hrest
    obtain rfl : x' = x := hf (List.mem_append_right _ List.mem_cons_self) hx heq
    refine ⟨(hp _ hx).mpr hP, before, after, rfl, fun a ha ↦ ?_⟩
    exact (hnot a (List.mem_append_left _ ha)).mpr (hbefore _ (List.mem_map_of_mem ha))

theorem find?_eq_none_iff_forall {f : α → β} {p : α → Bool} {P : β → Prop}
    (hp : ∀ a ∈ xs, p a = true ↔ P (f a)) : xs.find? p = none ↔ ∀ b ∈ xs.map f, ¬P b := by
  rw [List.find?_eq_none, List.forall_mem_map]
  exact forall₂_congr fun a ha ↦ not_congr (hp a ha)

theorem IsFirst.unique (h : IsFirst P x xs) (h' : IsFirst P y xs) : x = y := by
  classical
  have hfind : ∀ z, IsFirst P z xs → xs.find? (P ·) = some z := by
    rintro z ⟨before, after, hxs, hz, hbefore⟩
    rw [List.find?_eq_some_iff_append]
    exact ⟨decide_eq_true hz, before, after, hxs, fun y hy ↦ by simpa using hbefore y hy⟩
  exact Option.some.inj ((hfind x h).symm.trans (hfind y h'))

end IsFirst

/-! ## Texts of patterns -/

variable {read : PatternReader}

namespace Pattern

/-- The reader refuses the text. -/
def Refused (read : PatternReader) (source : String) : Prop := read source = none

/-- The reader accepts the text as a pattern, and the pattern matches in another text. -/
def OccursIn (read : PatternReader) (source text : String) : Prop :=
  ∃ isMatch, read source = some isMatch ∧ isMatch text = true

theorem ReadBy.isMatch_iff {p : Pattern} (hp : p.ReadBy read) (text : String) :
    p.isMatch text = true ↔ OccursIn read p.source text := by
  rw [OccursIn, hp]
  simp

end Pattern

/-! ## Reading patterns in order -/

/-- What comes of reading texts as patterns one after the other: a result if none of them is
refused, and otherwise the first that is as the fault. -/
inductive ReadsInOrder (read : PatternReader) {α : Type} (sources : List String) :
    Except TableFault α → Prop where
  | ok (h : ∀ source ∈ sources, ¬Pattern.Refused read source) (a : α) :
      ReadsInOrder read sources (.ok a)
  | error {source : String} (h : IsFirst (Pattern.Refused read) source sources) :
      ReadsInOrder read sources (.error (.badPattern source))

namespace ReadsInOrder

variable {α β : Type} {sources sources' : List String} {x : Except TableFault α}
  {fault : TableFault}

theorem pure (a : α) : ReadsInOrder read [] (Pure.pure a : Except TableFault α) :=
  .ok (fun _ h ↦ absurd h List.not_mem_nil) a

/-- **One reading after the other.** -/
theorem bind {f : α → Except TableFault β} (hx : ReadsInOrder read sources x)
    (hf : ∀ a, ReadsInOrder read sources' (f a)) :
    ReadsInOrder read (sources ++ sources') (x >>= f) := by
  rcases hx with ⟨hall, a⟩ | hfirst
  · have ha : ReadsInOrder read sources' (f a) := hf a
    change ReadsInOrder read (sources ++ sources') (f a)
    generalize f a = y at ha ⊢
    rcases ha with ⟨hall', b⟩ | hfirst
    · exact .ok (List.forall_mem_append.mpr ⟨hall, hall'⟩) b
    · exact .error (hfirst.append_left hall)
  · exact .error (hfirst.append_right sources')

theorem bind_pure {f : α → β} (hx : ReadsInOrder read sources x) :
    ReadsInOrder read sources (x >>= fun a ↦ Pure.pure (f a)) := by
  have h := hx.bind fun a ↦ pure (f a)
  rwa [List.append_nil] at h

/-- **A list is read member by member.** -/
theorem mapM {γ : Type} {f : γ → Except TableFault α} {g : γ → List String}
    (h : ∀ c, ReadsInOrder read (g c) (f c)) (cs : List γ) :
    ReadsInOrder read (cs.flatMap g) (cs.mapM f) := by
  induction cs with
  | nil => exact pure []
  | cons c cs ih =>
    rw [List.flatMap_cons, List.mapM_cons]
    exact (h c).bind fun a ↦ ih.bind_pure

theorem eq_error_iff (h : ReadsInOrder read sources x) : x = .error fault ↔
    ∃ source, IsFirst (Pattern.Refused read) source sources ∧ fault = .badPattern source := by
  rcases h with ⟨hall, a⟩ | hfirst
  · refine iff_of_false (by simp) ?_
    rintro ⟨source, hfirst, -⟩
    exact hall source hfirst.mem.1 hfirst.mem.2
  · constructor
    · intro h
      exact ⟨_, hfirst, (Except.error.inj h).symm⟩
    · rintro ⟨source, hfirst', rfl⟩
      rw [hfirst.unique hfirst']

theorem exists_eq_error_iff (h : ReadsInOrder read sources x) :
    (∃ fault, x = .error fault) ↔ ∃ source ∈ sources, Pattern.Refused read source := by
  rcases h with ⟨hall, a⟩ | hfirst
  · exact iff_of_false (by simp) fun ⟨source, hmem, hnot⟩ ↦ hall source hmem hnot
  · exact iff_of_true ⟨_, rfl⟩ ⟨_, hfirst.mem⟩

end ReadsInOrder

/-! ## Compiling in order -/

theorem Pattern.readsInOrder_compile (source : String) :
    ReadsInOrder read [source] (Pattern.compile source read) := by
  rw [Pattern.compile, ofText?]
  rcases h : read source with _ | isMatch
  · exact .error (isFirst_singleton h)
  · refine .ok (List.forall_mem_singleton.mpr fun hrefused ↦ ?_) _
    cases h.symm.trans hrefused

theorem SubstitutionSpec.readsInOrder_compile (s : SubstitutionSpec) :
    ReadsInOrder read [s.pattern] (s.compile read) :=
  (Pattern.readsInOrder_compile s.pattern).bind_pure

theorem ActionSpec.readsInOrder_compile (a : ActionSpec) :
    ReadsInOrder read a.patterns (a.compile read) := by
  rcases a with subs | text | text
  · rw [patterns, List.map_eq_flatMap]
    exact (ReadsInOrder.mapM SubstitutionSpec.readsInOrder_compile subs).bind_pure
  · exact .pure _
  · exact .pure _

theorem RuleSpec.readsInOrder_compile (r : RuleSpec) :
    ReadsInOrder read r.patterns (r.compile read) :=
  (Pattern.readsInOrder_compile r.keyPattern).bind fun _ ↦
    (ReadsInOrder.mapM ActionSpec.readsInOrder_compile r.actions).bind_pure

/-- **A table is read in the order of its patterns.** -/
theorem TableSpec.readsInOrder_compile (t : TableSpec) :
    ReadsInOrder read t.patterns (t.compile read) :=
  (ReadsInOrder.mapM RuleSpec.readsInOrder_compile t.rules).bind_pure

/-! ## Rules and substitutions as they are written -/

namespace Table

variable {t : Table}

theorem ReadBy.isMatch_iff (ht : t.ReadBy read) (key : String) : ∀ rule ∈ t.rules,
    rule.keyPattern.isMatch key = true ↔ Pattern.OccursIn read rule.spec.keyPattern key :=
  fun _ hrule ↦ (ht.of_mem hrule _ List.mem_cons_self).isMatch_iff key

/-- The rule of a key is the first one, as the rules are written, whose pattern occurs in it. -/
theorem ReadBy.rule?_eq_some_iff (ht : t.ReadBy read) {key : String} {rule : Rule} :
    t.rule? key = some rule ↔ rule ∈ t.rules ∧
      IsFirst (fun r ↦ Pattern.OccursIn read r.keyPattern key) rule.spec t.spec.rules :=
  find?_eq_some_iff_isFirst
    (fun _ hrule _ hrule' ↦ Rule.eq_of_spec_eq (ht.of_mem hrule) (ht.of_mem hrule'))
    (ht.isMatch_iff key)

theorem ReadBy.rule?_eq_none_iff (ht : t.ReadBy read) {key : String} :
    t.rule? key = none ↔ ∀ r ∈ t.spec.rules, ¬Pattern.OccursIn read r.keyPattern key :=
  find?_eq_none_iff_forall (P := fun r : RuleSpec ↦ Pattern.OccursIn read r.keyPattern key)
    (ht.isMatch_iff key)

end Table

/-- What substitutions make of a path: the replacement of the first one whose pattern occurs in it,
or the path itself if there is none. -/
inductive SubstitutionSpec.Gives (read : PatternReader) (subs : List SubstitutionSpec)
    (path : String) : String → Prop where
  | replaced {s : SubstitutionSpec}
      (h : IsFirst (fun s ↦ Pattern.OccursIn read s.pattern path) s subs) :
      Gives read subs path s.replacement
  | kept (h : ∀ s ∈ subs, ¬Pattern.OccursIn read s.pattern path) : Gives read subs path path

theorem Substitution.gives_applyFirst {subs : List Substitution}
    (hread : ∀ sub ∈ subs, sub.pattern.ReadBy read) (path : String) :
    SubstitutionSpec.Gives read (subs.map spec) path (applyFirst subs path) := by
  have hp : ∀ sub ∈ subs, sub.pattern.isMatch path = true ↔
      Pattern.OccursIn read sub.spec.pattern path := fun sub hsub ↦
    (hread sub hsub).isMatch_iff path
  have hspec : Set.InjOn spec {sub | sub ∈ subs} := fun _ hsub _ hsub' ↦
    eq_of_spec_eq (hread _ hsub) (hread _ hsub')
  rw [applyFirst]
  split
  · next sub h => exact .replaced (s := sub.spec) ((find?_eq_some_iff_isFirst hspec hp).mp h).2
  · next h => exact .kept ((find?_eq_none_iff_forall (f := spec) hp).mp h)

/-- The actions of a compiled table stand where they stand in the table as it is written. -/
theorem Table.exists_paths_of_spec {t : Table} {i k : Nat} {r : RuleSpec}
    {specs : List SubstitutionSpec} (hr : t.spec.rules[i]? = some r)
    (hspecs : r.actions[k]? = some (.paths specs)) :
    ∃ rule subs, t.rules[i]? = some rule ∧ rule.actions[k]? = some (.paths subs) ∧
      subs.map Substitution.spec = specs := by
  rw [spec, List.getElem?_map] at hr
  obtain ⟨rule, hrule, rfl⟩ := Option.map_eq_some_iff.mp hr
  rw [Rule.spec, List.getElem?_map] at hspecs
  obtain ⟨a, ha, hspec⟩ := Option.map_eq_some_iff.mp hspecs
  rcases a with subs | text | text
  · exact ⟨rule, subs, hrule, ha, ActionSpec.paths.inj hspec⟩
  · cases hspec
  · cases hspec

theorem Rule.pattern_mem_patterns {rule : Rule} {subs : List Substitution}
    (hsubs : .paths subs ∈ rule.actions) {sub : Substitution} (hsub : sub ∈ subs) :
    sub.pattern ∈ rule.patterns :=
  List.mem_cons_of_mem _ (List.mem_flatMap.mpr ⟨_, hsubs, List.mem_map_of_mem hsub⟩)

/-- **Compiling is exact,** whatever the reader accepts. It fails exactly if some pattern is
refused, and then with the first one that is. Otherwise the compiled table is the one that is
written down as the table was: it has the same name, encoding and field names, and the same rules,
actions and substitutions in the same order, and its patterns are what the reader gives. So the rule
of a key is the first one, as the rules are written, whose pattern occurs in the key, and each
action on paths replaces a path by what its substitutions give as they are written. -/
theorem TableSpec.compile_exact (read : PatternReader) (t : TableSpec) :
    ((∃ fault, t.compile read = .error fault) ↔
      ∃ source ∈ t.patterns, Pattern.Refused read source) ∧
    (∀ fault, t.compile read = .error fault ↔
      ∃ source, IsFirst (Pattern.Refused read) source t.patterns ∧ fault = .badPattern source) ∧
    (∀ t', t.compile read = .ok t' ↔ t'.spec = t ∧ t'.ReadBy read) ∧
    ∀ t', t.compile read = .ok t' →
      (∀ key rule, t'.rule? key = some rule ↔ rule ∈ t'.rules ∧
        IsFirst (fun r ↦ Pattern.OccursIn read r.keyPattern key) rule.spec t.rules) ∧
      (∀ key, t'.rule? key = none ↔ ∀ r ∈ t.rules, ¬Pattern.OccursIn read r.keyPattern key) ∧
      ∀ (i k : Nat) r specs, t.rules[i]? = some r → r.actions[k]? = some (.paths specs) →
        ∃ rule subs, t'.rules[i]? = some rule ∧ rule.actions[k]? = some (.paths subs) ∧
          ∀ path, SubstitutionSpec.Gives read specs path (Substitution.applyFirst subs path) := by
  refine ⟨t.readsInOrder_compile.exists_eq_error_iff,
    fun fault ↦ t.readsInOrder_compile.eq_error_iff, fun t' ↦ compile_eq_ok_iff, fun t' ht' ↦ ?_⟩
  obtain ⟨rfl, hread⟩ := compile_eq_ok_iff.mp ht'
  refine ⟨fun key rule ↦ Table.ReadBy.rule?_eq_some_iff hread,
    fun key ↦ Table.ReadBy.rule?_eq_none_iff hread, fun i k r specs hr hspecs ↦ ?_⟩
  obtain ⟨rule, subs, hrule, hsubs, rfl⟩ := Table.exists_paths_of_spec hr hspecs
  refine ⟨rule, subs, hrule, hsubs, Substitution.gives_applyFirst fun sub hsub ↦ ?_⟩
  have hpatterns := Table.ReadBy.of_mem hread (List.mem_of_getElem? hrule)
  exact hpatterns _ (Rule.pattern_mem_patterns (List.mem_of_getElem? hsubs) hsub)

/-- The pattern of a substitution is refused, and so is the pattern for keys of a later rule; the
first of the two is reported. Without them two rules take the same keys, and two substitutions the
same paths. -/
theorem TableSpec.compile_exact_order :
    let faulty : TableSpec := { name := "t", rules := [
      ⟨"t", "x", [.devpath "/d", .paths [⟨"u", "1"⟩, ⟨"[", "2"⟩]]⟩, ⟨"(", "y", []⟩] }
    let t : TableSpec := { name := "t", rules := [
      ⟨"t", "x", [.devpath "/d", .paths [⟨"u", "1"⟩, ⟨"u", "2"⟩]]⟩, ⟨"t", "y", []⟩] }
    let key : Pattern := ⟨"t", Expr.isMatch (.chars (.single 't'))⟩
    let path : Pattern := ⟨"u", Expr.isMatch (.chars (.single 'u'))⟩
    let rule : Rule := ⟨key, "x", [.devpath "/d", .paths [⟨path, "1"⟩, ⟨path, "2"⟩]]⟩
    let t' : Table := ⟨"t", ⟨.plain, {}⟩, [rule, ⟨key, "y", []⟩]⟩
    faulty.compile Expr.reader = .error (.badPattern "[") ∧ t.compile Expr.reader = .ok t' ∧
      t'.rule? "at" = some rule ∧
      IsFirst (fun r ↦ Pattern.OccursIn Expr.reader r.keyPattern "at") rule.spec t.rules ∧
      SubstitutionSpec.Gives Expr.reader [⟨"u", "1"⟩, ⟨"u", "2"⟩] "du" "1" := by
  intro faulty t key path rule t'
  have hfirst : IsFirst (Pattern.Refused Expr.reader) "[" faulty.patterns := by
    refine ⟨["t", "u"], ["("], rfl, by unfold Pattern.Refused; decide +kernel, ?_⟩
    unfold Pattern.Refused
    decide +kernel
  have hfaulty := ((compile_exact Expr.reader faulty).2.1 _).mpr ⟨"[", hfirst, rfl⟩
  have hkey : key.ReadBy Expr.reader := Pattern.readBy_reader (by decide +kernel)
  have hpath : path.ReadBy Expr.reader := Pattern.readBy_reader (by decide +kernel)
  have hread : t'.ReadBy Expr.reader :=
    List.forall_iff_forall_mem.mp ⟨hkey, hpath, hpath, hkey⟩
  obtain ⟨-, -, hspec, hexact⟩ := compile_exact Expr.reader t
  have hcompile : t.compile Expr.reader = .ok t' := (hspec t').mpr ⟨rfl, hread⟩
  obtain ⟨hrule, -, hpaths⟩ := hexact t' hcompile
  have hat : t'.rule? "at" = some rule := rfl
  obtain ⟨rule₁, subs, hrule₁, hsubs, hgives⟩ := hpaths 0 1 _ _ rfl rfl
  obtain rfl : rule = rule₁ := Option.some.inj hrule₁
  obtain rfl := Action.paths.inj (Option.some.inj hsubs)
  exact ⟨hfaulty, hcompile, hat, ((hrule "at" rule).mp hat).2, hgives "du"⟩

end DeviceSnapshot
