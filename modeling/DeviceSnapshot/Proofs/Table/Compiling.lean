import DeviceSnapshot.Proofs.Result
import DeviceSnapshot.Table.Compiled

/-!
# What compiling keeps

A compiled table has a rule for each rule of the table as it is written, in the same order, and the
same holds for the actions of a rule and the substitutions of an action. Only patterns are read, and
a pattern remembers the text that it was read from. So a compiled table can be written down again,
and compiling gives exactly the table that is written down as what was compiled and all of whose
patterns are what the reader gives (`TableSpec.compile_eq_ok_iff`). The reader can be any.
-/

namespace DeviceSnapshot

variable {read : PatternReader}

/-! ## Patterns -/

/-- The pattern is what a reader gives for its text. -/
def Pattern.ReadBy (read : PatternReader) (p : Pattern) : Prop := read p.source = some p.isMatch

theorem Pattern.readBy_reader {source : String} {e : Expr} (h : Expr.ofText? source = some e) :
    (⟨source, e.isMatch⟩ : Pattern).ReadBy Expr.reader := congrArg (Option.map Expr.isMatch) h

theorem Pattern.compile_eq_ok_iff {source : String} {p : Pattern} :
    Pattern.compile source read = .ok p ↔ p.source = source ∧ p.ReadBy read := by
  rw [Pattern.compile, Pattern.ofText?, ReadBy]
  rcases h : read source with _ | isMatch
  · refine iff_of_false (by simp) ?_
    rintro ⟨rfl, hp⟩
    cases h.symm.trans hp
  · constructor
    · intro hp
      obtain rfl := Except.ok.inj hp
      exact ⟨rfl, h⟩
    · rintro ⟨rfl, hp⟩
      obtain rfl := Option.some.inj (h.symm.trans hp)
      rfl

/-! ## Writing a table down -/

def Substitution.spec (sub : Substitution) : SubstitutionSpec :=
  ⟨sub.pattern.source, sub.replacement⟩

def Action.spec : Action → ActionSpec
  | .paths subs => .paths (subs.map Substitution.spec)
  | .devpath text => .devpath text
  | .dmUuid text => .dmUuid text

def Rule.spec (rule : Rule) : RuleSpec :=
  ⟨rule.keyPattern.source, rule.canonicalKey, rule.actions.map Action.spec⟩

/-- A table as it is written. -/
def Table.spec (t : Table) : TableSpec :=
  ⟨t.name, t.layout.encoding, t.layout.fields, t.rules.map Rule.spec⟩

/-! ## The patterns of a table -/

def ActionSpec.patterns : ActionSpec → List String
  | .paths subs => subs.map (·.pattern)
  | .devpath _ | .dmUuid _ => []

/-- The patterns of a rule, in order: that for keys, and then those of the actions. -/
def RuleSpec.patterns (r : RuleSpec) : List String :=
  r.keyPattern :: r.actions.flatMap ActionSpec.patterns

/-- The patterns of a table, in order. -/
def TableSpec.patterns (t : TableSpec) : List String := t.rules.flatMap RuleSpec.patterns

def Action.patterns : Action → List Pattern
  | .paths subs => subs.map (·.pattern)
  | .devpath _ | .dmUuid _ => []

def Rule.patterns (rule : Rule) : List Pattern :=
  rule.keyPattern :: rule.actions.flatMap Action.patterns

def Table.patterns (t : Table) : List Pattern := t.rules.flatMap Rule.patterns

def Rule.ReadBy (read : PatternReader) (rule : Rule) : Prop := ∀ p ∈ rule.patterns, p.ReadBy read

/-- All patterns of a table are what a reader gives for their texts. -/
def Table.ReadBy (read : PatternReader) (t : Table) : Prop := ∀ p ∈ t.patterns, p.ReadBy read

theorem Table.ReadBy.of_mem {t : Table} (ht : t.ReadBy read) {rule : Rule}
    (hrule : rule ∈ t.rules) : rule.ReadBy read := fun p hp ↦
  ht p (List.mem_flatMap.mpr ⟨rule, hrule, hp⟩)

theorem Action.patterns_spec (a : Action) : a.spec.patterns = a.patterns.map (·.source) := by
  rcases a with subs | text | text
  · simp [spec, patterns, ActionSpec.patterns, Substitution.spec]
  · rfl
  · rfl

theorem Rule.patterns_spec (rule : Rule) : rule.spec.patterns = rule.patterns.map (·.source) := by
  simp [spec, patterns, RuleSpec.patterns, List.flatMap_map, List.map_flatMap,
    Action.patterns_spec]

theorem Table.patterns_spec (t : Table) : t.spec.patterns = t.patterns.map (·.source) := by
  simp [spec, patterns, TableSpec.patterns, List.flatMap_map, List.map_flatMap,
    Rule.patterns_spec]

/-! ## Compiling -/

/-- Reading the members of a list, where what a member is read as is known by how it is written and
by a property of its own. -/
theorem mapM_eq_ok_iff_map_eq {ε α β : Type} {f : α → Except ε β} {g : β → α} {P : β → Prop}
    (h : ∀ a b, f a = .ok b ↔ g b = a ∧ P b) {l : List α} {l' : List β} :
    l.mapM f = .ok l' ↔ l'.map g = l ∧ ∀ b ∈ l', P b := by
  have hfg : (fun a b ↦ f a = .ok b) = fun a b ↦ g b = a ∧ P b :=
    funext₂ fun a b ↦ propext (h a b)
  rw [mapM_eq_ok_iff, hfg]
  induction l generalizing l' with
  | nil =>
    rw [List.forall₂_nil_left_iff, List.map_eq_nil_iff]
    exact ⟨fun hl ↦ ⟨hl, hl ▸ List.forall_mem_nil _⟩, And.left⟩
  | cons a l ih =>
    simp only [List.forall₂_cons_left_iff, ih, List.map_eq_cons_iff]
    constructor
    · rintro ⟨b, bs, ⟨hb, hPb⟩, ⟨hbs, hPbs⟩, rfl⟩
      exact ⟨⟨b, bs, rfl, hb, hbs⟩, List.forall_mem_cons.mpr ⟨hPb, hPbs⟩⟩
    · rintro ⟨⟨b, bs, rfl, hb, hbs⟩, hP⟩
      obtain ⟨hPb, hPbs⟩ := List.forall_mem_cons.mp hP
      exact ⟨b, bs, ⟨hb, hPb⟩, ⟨hbs, hPbs⟩, rfl⟩

theorem SubstitutionSpec.compile_eq_ok_iff (s : SubstitutionSpec) (sub : Substitution) :
    s.compile read = .ok sub ↔ sub.spec = s ∧ sub.pattern.ReadBy read := by
  refine bind_eq_ok_iff.trans ?_
  constructor
  · rintro ⟨p, hp, h⟩
    obtain rfl := Except.ok.inj h
    obtain ⟨hsource, hread⟩ := Pattern.compile_eq_ok_iff.mp hp
    exact ⟨by rw [Substitution.spec, hsource], hread⟩
  · rintro ⟨rfl, hread⟩
    exact ⟨sub.pattern, Pattern.compile_eq_ok_iff.mpr ⟨rfl, hread⟩, rfl⟩

theorem ActionSpec.compile_eq_ok_iff (a : ActionSpec) (action : Action) :
    a.compile read = .ok action ↔ action.spec = a ∧ ∀ p ∈ action.patterns, p.ReadBy read := by
  rcases a with subs | text | text
  · refine bind_eq_ok_iff.trans ?_
    simp only [mapM_eq_ok_iff_map_eq SubstitutionSpec.compile_eq_ok_iff]
    constructor
    · rintro ⟨subs', ⟨rfl, hread⟩, h⟩
      obtain rfl := Except.ok.inj h
      exact ⟨rfl, List.forall_mem_map.mpr hread⟩
    · rintro ⟨h, hread⟩
      rcases action with subs' | text | text
      · exact ⟨subs', ⟨ActionSpec.paths.inj h, List.forall_mem_map.mp hread⟩, rfl⟩
      · cases h
      · cases h
  · rcases action <;> simp [compile, Action.spec, Action.patterns, pure, Except.pure, eq_comm]
  · rcases action <;> simp [compile, Action.spec, Action.patterns, pure, Except.pure, eq_comm]

theorem RuleSpec.compile_eq_ok_iff (r : RuleSpec) (rule : Rule) :
    r.compile read = .ok rule ↔ rule.spec = r ∧ rule.ReadBy read := by
  simp only [Rule.ReadBy, Rule.patterns, List.forall_mem_cons, List.forall_mem_flatMap]
  refine bind_eq_ok_iff.trans ?_
  constructor
  · rintro ⟨p, hp, h⟩
    obtain ⟨actions, hactions, h⟩ := bind_eq_ok_iff.mp h
    obtain rfl := Except.ok.inj h
    obtain ⟨hsource, hread⟩ := Pattern.compile_eq_ok_iff.mp hp
    obtain ⟨hspecs, hreads⟩ := (mapM_eq_ok_iff_map_eq ActionSpec.compile_eq_ok_iff).mp hactions
    exact ⟨by rw [Rule.spec, hsource, hspecs], hread, hreads⟩
  · rintro ⟨rfl, hread, hreads⟩
    exact ⟨rule.keyPattern, Pattern.compile_eq_ok_iff.mpr ⟨rfl, hread⟩, bind_eq_ok_iff.mpr
      ⟨rule.actions, (mapM_eq_ok_iff_map_eq ActionSpec.compile_eq_ok_iff).mpr ⟨rfl, hreads⟩, rfl⟩⟩

/-- **A table is compiled to the one that is written down as it is,** with the patterns that the
reader gives. -/
theorem TableSpec.compile_eq_ok_iff {t : TableSpec} {t' : Table} :
    t.compile read = .ok t' ↔ t'.spec = t ∧ t'.ReadBy read := by
  rw [Table.ReadBy, Table.patterns, List.forall_mem_flatMap]
  refine bind_eq_ok_iff.trans ?_
  constructor
  · rintro ⟨rules, hrules, h⟩
    obtain rfl := Except.ok.inj h
    obtain ⟨hspecs, hreads⟩ := (mapM_eq_ok_iff_map_eq RuleSpec.compile_eq_ok_iff).mp hrules
    exact ⟨by rw [Table.spec, hspecs], hreads⟩
  · rintro ⟨rfl, hreads⟩
    exact ⟨t'.rules, (mapM_eq_ok_iff_map_eq RuleSpec.compile_eq_ok_iff).mpr ⟨rfl, hreads⟩, rfl⟩

/-- A reader need only be right about the patterns of the table. -/
theorem TableSpec.compile_of_agree {read' : PatternReader} {t : TableSpec} {t' : Table}
    (h : ∀ source ∈ t.patterns, read source = read' source) (ht : t.compile read = .ok t') :
    t.compile read' = .ok t' := by
  obtain ⟨rfl, hreads⟩ := compile_eq_ok_iff.mp ht
  rw [Table.patterns_spec, List.forall_mem_map] at h
  exact compile_eq_ok_iff.mpr ⟨rfl, fun p hp ↦ (h p hp).symm.trans (hreads p hp)⟩

/-! ## What rules and substitutions are written as -/

theorem Substitution.eq_of_spec_eq {sub sub' : Substitution} (hread : sub.pattern.ReadBy read)
    (hread' : sub'.pattern.ReadBy read) (h : sub.spec = sub'.spec) : sub = sub' := by
  have hsub := (SubstitutionSpec.compile_eq_ok_iff _ sub).mpr ⟨h, hread⟩
  have hsub' := (SubstitutionSpec.compile_eq_ok_iff _ sub').mpr ⟨rfl, hread'⟩
  exact Except.ok.inj (hsub.symm.trans hsub')

/-- Rules of one reader are told apart by how they are written. -/
theorem Rule.eq_of_spec_eq {rule rule' : Rule} (hread : rule.ReadBy read)
    (hread' : rule'.ReadBy read) (h : rule.spec = rule'.spec) : rule = rule' := by
  have hrule := (RuleSpec.compile_eq_ok_iff _ rule).mpr ⟨h, hread⟩
  have hrule' := (RuleSpec.compile_eq_ok_iff _ rule').mpr ⟨rfl, hread'⟩
  exact Except.ok.inj (hrule.symm.trans hrule')

namespace TableSpec

variable {t : TableSpec} {t' : Table}

theorem sources_of_compile (h : t.compile read = .ok t') :
    t'.rules.map (·.keyPattern.source) = t.rules.map (·.keyPattern) := by
  rw [← (compile_eq_ok_iff.mp h).1, Table.spec, List.map_map]
  rfl

theorem canonicalKeys_of_compile (h : t.compile read = .ok t') :
    t'.rules.map (·.canonicalKey) = t.rules.map (·.canonicalKey) := by
  rw [← (compile_eq_ok_iff.mp h).1, Table.spec, List.map_map]
  rfl

end TableSpec

theorem Builtin.compile_of_table {b : Builtin} {t : Table} (h : b.table = .ok t) :
    b.spec.compile = .ok t := by
  obtain ⟨-, -, h⟩ := bind_eq_ok_iff.mp h
  exact h

end DeviceSnapshot
