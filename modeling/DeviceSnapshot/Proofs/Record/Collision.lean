import DeviceSnapshot.Record
import DeviceSnapshot.Proofs.ByteOrder
import DeviceSnapshot.Proofs.Keyed
import DeviceSnapshot.Proofs.Result
import Mathlib.Data.Set.Function

/-!
# Which entry is kept under which key

Applying a table stores the outcome of every entry under the target of its key: the canonical key of
the first rule that matches, or the key itself. Targets may coincide, in two ways. Several keys may
belong to one canonical key, and a key that no rule matches may itself be a canonical key. In both
cases the entry whose key comes last is kept.

## The invariant

The run over a record carries a partial output. What it holds is said with reference to the entries
seen so far: under each target, the outcome of the last of them with this target (`Collected`). A
step appends one entry, whose key is above all keys seen, to the entries seen and inserts its
outcome under its target, so the new entry is the last with its target and no other target is
concerned.

A run that fails stops at the first entry without an outcome; nothing of the partial output is left
then, and only the lines reported up to there are.
-/

namespace DeviceSnapshot

namespace Table

variable (t : Table)

/-- The key under which the outcome of an entry is stored. -/
def target (key : String) : String :=
  match t.rule? key with
  | none => key
  | some rule => rule.canonicalKey

/-- What becomes of an entry: a copy, or the entry as its rule amends it. -/
def outcome (key : String) (entry : Json) : Except SnapshotFault Json :=
  match t.rule? key with
  | none => .ok entry
  | some rule => rule.amend t.layout key entry

/-- The line that reports the rule of a key, if it has one. -/
def report (key : String) : Option LogLine := (t.rule? key).map (Record.renamed t key)

variable {t}

theorem target_of_rule? {key : String} {rule : Rule} (h : t.rule? key = some rule) :
    t.target key = rule.canonicalKey := by
  rw [target, h]

theorem target_of_rule?_none {key : String} (h : t.rule? key = none) : t.target key = key := by
  rw [target, h]

theorem outcome_of_rule? {key : String} {rule : Rule} (h : t.rule? key = some rule)
    (entry : Json) : t.outcome key entry
      = (Action.applyAll t.layout rule.actions entry).mapError (.unexpectedShape key) := by
  rw [outcome, h]
  rfl

theorem outcome_of_rule?_none {key : String} (h : t.rule? key = none) (entry : Json) :
    t.outcome key entry = .ok entry := by
  rw [outcome, h]

theorem outcome_eq_error_iff {key : String} {entry : Json} {fault : SnapshotFault} :
    t.outcome key entry = .error fault ↔ ∃ rule cause, t.rule? key = some rule ∧
      Action.applyAll t.layout rule.actions entry = .error cause ∧
      fault = .unexpectedShape key cause := by
  constructor
  · intro h
    rcases hrule : t.rule? key with _ | rule
    · simp [outcome_of_rule?_none hrule] at h
    · rw [outcome_of_rule? hrule, mapError_eq_error_iff] at h
      obtain ⟨cause, happly, rfl⟩ := h
      exact ⟨rule, cause, rfl, happly, rfl⟩
  · rintro ⟨rule, cause, hrule, happly, rfl⟩
    rw [outcome_of_rule? hrule, happly]
    rfl

theorem outcome_eq_ok_iff_of_rule? {key : String} {rule : Rule} (h : t.rule? key = some rule)
    {entry v : Json} :
    t.outcome key entry = .ok v ↔ Action.applyAll t.layout rule.actions entry = .ok v := by
  rw [outcome_of_rule? h, mapError_eq_ok_iff]

end Table

namespace Record

variable {t : Table}

/-! ## One step -/

theorem applyFrom_cons (t : Table) (output : Record) (key : String) (entry : Json)
    (rest : List (String × Json)) :
    applyFrom t output ((key, entry) :: rest) =
      match t.outcome key entry with
      | .error fault => (.error fault, (t.report key).toList)
      | .ok v =>
        let run := applyFrom t (Keyed.insert output (t.target key) v) rest
        (run.1, (t.report key).toList ++ run.2) := by
  rw [applyFrom]
  cases hrule : t.rule? key with
  | none =>
    rw [Table.outcome_of_rule?_none hrule, Table.target_of_rule?_none hrule, Table.report, hrule]
    rfl
  | some rule =>
    rw [Table.outcome, Table.target, Table.report, hrule]
    dsimp only
    cases rule.amend t.layout key entry <;> rfl

/-- Under each target, an output holds the outcome of the last entry with this target. -/
structure Collected (t : Table) (seen output : Record) : Prop where
  ordered : output.Ordered
  get?_iff : ∀ c v, Keyed.get? output c = some v ↔ ∃ e ∈ seen, t.target e.1 = c ∧
    (∀ e' ∈ seen, t.target e'.1 = c → e'.1 ≤ e.1) ∧ t.outcome e.1 e.2 = .ok v

theorem collected_nil (t : Table) : Collected t [] [] where
  ordered := Keyed.ordered_nil
  get?_iff := by simp

/-- **The step keeps the invariant.** -/
theorem Collected.insert {seen output : Record} (h : Collected t seen output) {key : String}
    {entry v : Json} (hlast : ∀ k ∈ Keyed.keys seen, k < key) (hv : t.outcome key entry = .ok v) :
    Collected t (seen ++ [(key, entry)]) (Keyed.insert output (t.target key) v) where
  ordered := h.ordered.insert _ _
  get?_iff := by
    intro c w
    have hseen : ∀ e ∈ seen, e.1 < key := fun e he ↦ hlast e.1 (List.mem_map_of_mem he)
    by_cases hc : c = t.target key
    · -- The new entry is the last one with this target.
      rw [hc, Keyed.get?_insert_self, Option.some.injEq]
      constructor
      · rintro rfl
        refine ⟨(key, entry), List.mem_append_right _ List.mem_cons_self, rfl, ?_, hv⟩
        intro e he _
        rcases List.mem_append.mp he with he | he
        · exact String.not_lt.mp (String.lt_asymm (hseen e he))
        · obtain rfl := List.mem_singleton.mp he
          exact String.le_refl key
      · rintro ⟨e, he, -, hmax, hw⟩
        rcases List.mem_append.mp he with he | he
        · have hle := hmax _ (List.mem_append_right seen List.mem_cons_self) rfl
          exact absurd (hseen e he) (String.not_lt.mpr hle)
        · rw [List.mem_singleton.mp he, hv] at hw
          exact Except.ok.inj hw
    · rw [Keyed.get?_insert_of_ne v hc, h.get?_iff]
      constructor
      · rintro ⟨e, he, ht, hmax, hw⟩
        refine ⟨e, List.mem_append_left _ he, ht, fun e' he' ht' ↦ ?_, hw⟩
        rcases List.mem_append.mp he' with he' | he'
        · exact hmax e' he' ht'
        · rw [List.mem_singleton.mp he'] at ht'
          exact absurd ht'.symm hc
      · rintro ⟨e, he, ht, hmax, hw⟩
        rcases List.mem_append.mp he with he | he
        · exact ⟨e, he, ht, fun e' he' ↦ hmax e' (List.mem_append_left _ he'), hw⟩
        · rw [List.mem_singleton.mp he] at ht
          exact absurd ht.symm hc

private theorem exists_last {p : String → Prop} {seen : Record} (h : ∃ e ∈ seen, p e.1) :
    ∃ e ∈ seen, p e.1 ∧ ∀ e' ∈ seen, p e'.1 → e'.1 ≤ e.1 := by
  induction seen with
  | nil => simp at h
  | cons e seen ih =>
    by_cases hrest : ∃ e' ∈ seen, p e'.1
    · obtain ⟨m, hm, hpm, hmax⟩ := ih hrest
      by_cases he : p e.1 ∧ m.1 < e.1
      · refine ⟨e, List.mem_cons_self, he.1, fun e' he' hp' ↦ ?_⟩
        rcases List.mem_cons.mp he' with rfl | he'
        · exact String.le_refl _
        · exact String.le_trans (hmax e' he' hp') (String.not_lt.mp (String.lt_asymm he.2))
      · refine ⟨m, List.mem_cons_of_mem _ hm, hpm, fun e' he' hp' ↦ ?_⟩
        rcases List.mem_cons.mp he' with rfl | he'
        · exact String.not_lt.mp fun hlt ↦ he ⟨hp', hlt⟩
        · exact hmax e' he' hp'
    · obtain ⟨e', he', hp'⟩ := h
      have hfirst : e' = e := by
        rcases List.mem_cons.mp he' with rfl | he'
        · rfl
        · exact absurd ⟨e', he', hp'⟩ hrest
      subst hfirst
      refine ⟨e', List.mem_cons_self, hp', fun e'' he'' hp'' ↦ ?_⟩
      rcases List.mem_cons.mp he'' with rfl | he''
      · exact String.le_refl _
      · exact absurd ⟨e'', he'', hp''⟩ hrest

/-! ## A whole run -/

theorem applyFrom_of_forall_ok {seen output rest : Record} (h : Collected t seen output)
    (hord : Keyed.Ordered (seen ++ rest)) (hok : ∀ e ∈ rest, ∃ v, t.outcome e.1 e.2 = .ok v) :
    ∃ o, applyFrom t output rest = (.ok o, (Keyed.keys rest).filterMap t.report) ∧
      Collected t (seen ++ rest) o := by
  induction rest generalizing seen output with
  | nil =>
    rw [List.append_nil]
    exact ⟨output, rfl, h⟩
  | cons e rest ih =>
    obtain ⟨key, entry⟩ := e
    obtain ⟨v, hv⟩ := hok (key, entry) List.mem_cons_self
    have hlast : ∀ k ∈ Keyed.keys seen, k < key := fun k hk ↦
      (Keyed.ordered_append_iff.mp hord).2.2 k hk key List.mem_cons_self
    have hsplit : seen ++ (key, entry) :: rest = seen ++ [(key, entry)] ++ rest := by simp
    rw [hsplit] at hord
    obtain ⟨o, ho, hcol⟩ := ih (h.insert hlast hv) hord fun e he ↦
      hok e (List.mem_cons_of_mem _ he)
    refine ⟨o, ?_, hsplit ▸ hcol⟩
    rw [applyFrom_cons, hv]
    dsimp only
    rw [ho, Keyed.keys_cons, List.filterMap_cons]
    cases t.report key <;> rfl

theorem applyFrom_of_error {before after : Record} {key : String} {entry : Json}
    {fault : SnapshotFault} (hok : ∀ e ∈ before, ∃ v, t.outcome e.1 e.2 = .ok v)
    (hfault : t.outcome key entry = .error fault) (output : Record) :
    applyFrom t output (before ++ (key, entry) :: after)
      = (.error fault, (Keyed.keys before ++ [key]).filterMap t.report) := by
  induction before generalizing output with
  | nil =>
    rw [List.nil_append, applyFrom_cons, hfault, Keyed.keys_nil, List.nil_append]
    cases hren : t.report key <;> simp [hren]
  | cons e before ih =>
    obtain ⟨k, entry'⟩ := e
    obtain ⟨v, hv⟩ := hok (k, entry') List.mem_cons_self
    rw [List.cons_append, applyFrom_cons, hv]
    dsimp only
    rw [ih fun e he ↦ hok e (List.mem_cons_of_mem _ he), Keyed.keys_cons, List.cons_append,
      List.filterMap_cons]
    cases t.report k <;> rfl

theorem forall_ok_or_exists_first_error (t : Table) (r : Record) :
    (∀ e ∈ r, ∃ v, t.outcome e.1 e.2 = .ok v) ∨
      ∃ before key entry after fault, r = before ++ (key, entry) :: after ∧
        (∀ e ∈ before, ∃ v, t.outcome e.1 e.2 = .ok v) ∧ t.outcome key entry = .error fault := by
  induction r with
  | nil => exact .inl (by simp)
  | cons e r ih =>
    obtain ⟨key, entry⟩ := e
    cases h : t.outcome key entry with
    | error fault => exact .inr ⟨[], key, entry, r, fault, rfl, by simp, h⟩
    | ok v =>
      rcases ih with hok | ⟨before, k, entry', after, fault, rfl, hok, hfault⟩
      · refine .inl fun e he ↦ ?_
        rcases List.mem_cons.mp he with rfl | he
        · exact ⟨v, h⟩
        · exact hok e he
      · refine .inr ⟨(key, entry) :: before, k, entry', after, fault, rfl, fun e he ↦ ?_, hfault⟩
        rcases List.mem_cons.mp he with rfl | he
        · exact ⟨v, h⟩
        · exact hok e he

theorem Collected.mem_keys_iff {seen output : Record} (h : Collected t seen output)
    (hok : ∀ e ∈ seen, ∃ v, t.outcome e.1 e.2 = .ok v) (c : String) :
    c ∈ Keyed.keys output ↔ ∃ k ∈ Keyed.keys seen, t.target k = c := by
  rw [Keyed.mem_keys_iff]
  constructor
  · rintro ⟨v, hv⟩
    obtain ⟨e, he, ht, -⟩ := (h.get?_iff c v).mp hv
    exact ⟨e.1, List.mem_map_of_mem he, ht⟩
  · rintro ⟨k, hk, ht⟩
    obtain ⟨e₀, he₀, rfl⟩ := List.mem_map.mp hk
    obtain ⟨e, he, hte, hmax⟩ := exists_last (p := fun k ↦ t.target k = c) ⟨e₀, he₀, ht⟩
    obtain ⟨v, hv⟩ := hok e he
    exact ⟨v, (h.get?_iff c v).mpr ⟨e, he, hte, hmax, hv⟩⟩

/-- An entry whose key is the last one with its target is the one that is kept. -/
theorem Collected.get?_target {seen output : Record} (h : Collected t seen output)
    (hok : ∀ e ∈ seen, ∃ v, t.outcome e.1 e.2 = .ok v) {k : String} {entry : Json}
    (hk : Keyed.get? seen k = some entry)
    (hlast : ∀ k' ∈ Keyed.keys seen, t.target k' = t.target k → k' ≤ k) :
    ∃ v, t.outcome k entry = .ok v ∧ Keyed.get? output (t.target k) = some v := by
  have hmem := Keyed.mem_of_get? hk
  obtain ⟨v, hv⟩ := hok _ hmem
  exact ⟨v, hv, (h.get?_iff _ v).mpr ⟨_, hmem, rfl, fun e' he' ↦
    hlast e'.1 (List.mem_map_of_mem he'), hv⟩⟩

theorem collected_of_applyRules {r o : Record} (hr : r.Ordered) (h : (applyRules t r).1 = .ok o) :
    (∀ e ∈ r, ∃ v, t.outcome e.1 e.2 = .ok v) ∧ Collected t r o := by
  rcases forall_ok_or_exists_first_error t r with hok | ⟨_, _, _, _, _, rfl, hok, hfault⟩
  · obtain ⟨o', ho', hcol⟩ := applyFrom_of_forall_ok (collected_nil t) hr hok
    rw [applyRules, ho'] at h
    exact ⟨hok, Except.ok.inj h ▸ hcol⟩
  · rw [applyRules, applyFrom_of_error hok hfault] at h
    cases h

theorem normalize_of_decode {snapshot : String} {r : Record} (h : decode snapshot = .ok r) :
    normalize t snapshot = ((applyRules t r).1.map text, (applyRules t r).2) := by
  rw [normalize, h]

/-! ## Records without collisions -/

/-- The output of a run over a record in which no two keys have one target. -/
theorem applyRules_eq_ok_iff {r : Record} (hr : r.Ordered)
    (hinj : Set.InjOn t.target {k | k ∈ r.keys}) {o : Record} :
    (applyRules t r).1 = .ok o ↔ (∀ e ∈ r, ∃ v, t.outcome e.1 e.2 = .ok v) ∧ o.Ordered ∧
      ∀ c v, Keyed.get? o c = some v ↔ ∃ e ∈ r, t.target e.1 = c ∧ t.outcome e.1 e.2 = .ok v := by
  have hlast : ∀ e ∈ r, ∀ e' ∈ r, t.target e'.1 = t.target e.1 → e'.1 ≤ e.1 := by
    intro e he e' he' htarget
    have hkey : e'.1 = e.1 := hinj (List.mem_map_of_mem he') (List.mem_map_of_mem he) htarget
    exact hkey ▸ String.le_refl e'.1
  have hget : ∀ o', Collected t r o' → ∀ c v, Keyed.get? o' c = some v ↔
      ∃ e ∈ r, t.target e.1 = c ∧ t.outcome e.1 e.2 = .ok v := by
    intro o' hcol c v
    rw [hcol.get?_iff]
    constructor
    · rintro ⟨e, he, htarget, -, hv⟩
      exact ⟨e, he, htarget, hv⟩
    · rintro ⟨e, he, htarget, hv⟩
      exact ⟨e, he, htarget, fun e' he' ht' ↦ hlast e he e' he' (ht'.trans htarget.symm), hv⟩
  constructor
  · intro h
    obtain ⟨hok, hcol⟩ := collected_of_applyRules hr h
    exact ⟨hok, hcol.ordered, hget o hcol⟩
  · rintro ⟨hok, ho, hiff⟩
    obtain ⟨o', ho', hcol⟩ := applyFrom_of_forall_ok (collected_nil t) hr hok
    rw [applyRules, ho']
    refine congrArg Except.ok (hcol.ordered.ext ho fun c ↦ Option.ext fun v ↦ ?_)
    rw [hget o' hcol, hiff]

/-! ## The law of a run -/

theorem filter_not_precedes_eq {before after : Record} {key : String} {entry : Json}
    (h : Keyed.Ordered (before ++ (key, entry) :: after)) :
    (Keyed.keys (before ++ (key, entry) :: after)).filter (fun k ↦ ¬Utf8.Precedes key k)
      = Keyed.keys before ++ [key] := by
  obtain ⟨-, hrest, hbefore⟩ := Keyed.ordered_append_iff.mp h
  obtain ⟨hafter, -⟩ := Keyed.ordered_cons_iff.mp hrest
  rw [Keyed.keys, List.map_append, List.map_cons, List.filter_append, List.filter_cons]
  rw [if_pos (by simpa using Utf8.not_precedes_self key)]
  congr 1
  · refine List.filter_eq_self.mpr fun k hk ↦ ?_
    have hlt : k < key := hbefore k hk key List.mem_cons_self
    simpa using (Utf8.lt_iff_precedes.mp hlt).asymm
  · rw [List.filter_eq_nil_iff.mpr]
    intro k hk
    simpa using Utf8.lt_iff_precedes.mp (hafter k hk)

/-- **The last entry is kept, and the first fault is reported.** If every matched entry can be
amended, the output holds exactly the targets of the keys, and under each of them the outcome of the
entry whose key is the last with this target in the order of bytes. Otherwise the run fails with the
first entry that cannot be amended. The rules of all keys up to there, or of all keys, are reported
in the order of the keys. -/
theorem applyRules_keeps_last (t : Table) {r : Record} (hr : r.Ordered) :
    r.keys.Pairwise Utf8.Precedes ∧
    ((∀ k entry rule, Keyed.get? r k = some entry → t.rule? k = some rule →
        ∃ v, Action.applyAll t.layout rule.actions entry = .ok v) →
      ∃ o, applyRules t r = (.ok o, r.keys.filterMap t.report) ∧ o.Ordered ∧
        (∀ c, c ∈ o.keys ↔ ∃ k ∈ r.keys, t.target k = c) ∧
        ∀ k entry, Keyed.get? r k = some entry →
          (∀ k' ∈ r.keys, t.target k' = t.target k → ¬Utf8.Precedes k k') →
          ∃ v, t.outcome k entry = .ok v ∧ Keyed.get? o (t.target k) = some v) ∧
    ((∃ k entry rule cause, Keyed.get? r k = some entry ∧ t.rule? k = some rule ∧
        Action.applyAll t.layout rule.actions entry = .error cause) →
      ∃ k entry rule cause, Keyed.get? r k = some entry ∧ t.rule? k = some rule ∧
        Action.applyAll t.layout rule.actions entry = .error cause ∧
        (∀ k' entry' rule' cause', Keyed.get? r k' = some entry' → t.rule? k' = some rule' →
          Action.applyAll t.layout rule'.actions entry' = .error cause' → ¬Utf8.Precedes k' k) ∧
        applyRules t r = (.error (.unexpectedShape k cause),
          (r.keys.filter fun k' ↦ ¬Utf8.Precedes k k').filterMap t.report)) := by
  refine ⟨hr.imp Utf8.lt_iff_precedes.mp, fun hall ↦ ?_, fun hsome ↦ ?_⟩
  · have hok : ∀ e ∈ r, ∃ v, t.outcome e.1 e.2 = .ok v := by
      intro e he
      cases hrule : t.rule? e.1 with
      | none => exact ⟨e.2, Table.outcome_of_rule?_none hrule e.2⟩
      | some rule =>
        obtain ⟨v, hv⟩ := hall e.1 e.2 rule (Keyed.get?_of_mem hr he) hrule
        exact ⟨v, (Table.outcome_eq_ok_iff_of_rule? hrule).mpr hv⟩
    obtain ⟨o, ho, hcol⟩ := applyFrom_of_forall_ok (collected_nil t) hr hok
    exact ⟨o, ho, hcol.ordered, hcol.mem_keys_iff hok, fun k entry hk hlast ↦
      hcol.get?_target hok hk fun k' hk' ht ↦ Utf8.le_iff_not_precedes.mpr (hlast k' hk' ht)⟩
  · rcases forall_ok_or_exists_first_error t r with hok | ⟨before, k, entry, after, fault, hsplit,
      hok, hfault⟩
    · obtain ⟨k, entry, rule, cause, hk, hrule, hcause⟩ := hsome
      obtain ⟨v, hv⟩ := hok (k, entry) (Keyed.mem_of_get? hk)
      rw [Table.outcome_eq_ok_iff_of_rule? hrule, hcause] at hv
      cases hv
    · obtain ⟨rule, cause, hrule, hcause, rfl⟩ := Table.outcome_eq_error_iff.mp hfault
      subst hsplit
      have hk := Keyed.get?_of_mem hr (List.mem_append_right before List.mem_cons_self)
      refine ⟨k, entry, rule, cause, hk, hrule, hcause, ?_, ?_⟩
      · intro k' entry' rule' cause' hk' hrule' hcause' hlt
        -- A key before the failing one belongs to an entry that has an outcome.
        rcases List.mem_append.mp (Keyed.mem_of_get? hk') with hmem | hmem
        · obtain ⟨v, hv⟩ := hok _ hmem
          rw [Table.outcome_eq_ok_iff_of_rule? hrule', hcause'] at hv
          cases hv
        · have hle : k ≤ k' := by
            rcases List.mem_cons.mp hmem with heq | hmem
            · obtain ⟨rfl, -⟩ := Prod.mk.inj heq
              exact String.le_refl k'
            · obtain ⟨-, hrest, -⟩ := Keyed.ordered_append_iff.mp hr
              exact String.not_lt.mp (String.lt_asymm
                ((Keyed.ordered_cons_iff.mp hrest).1 k' (Keyed.mem_keys_of_mem hmem)))
          exact Utf8.le_iff_not_precedes.mp hle hlt
      · rw [filter_not_precedes_eq hr]
        exact applyFrom_of_error hok hfault []

/-- A rule takes the key `a` to `b`, and `b` is also a key that no rule matches; the entry of `b`
comes later and is kept. -/
theorem applyRules_keeps_last_unmatched :
    let t : Table := {
      name := "t"
      layout := { encoding := .plain, fields := {} }
      rules := [⟨⟨"a", Expr.isMatch (.chars (.single 'a'))⟩, "b", []⟩] }
    let r : Record := [("a", .bool false), ("b", .bool true)]
    r.Ordered ∧ ∃ o, applyRules t r = (.ok o, [⟨.debug, .rules, "t: a -> b"⟩]) ∧
      Keyed.get? o "b" = some (.bool true) := by
  intro t r
  have hr : r.Ordered := by decide +kernel
  have ha : t.rule? "a" = t.rules[0]? := rfl
  have hb : t.rule? "b" = none := rfl
  have hreport : r.keys.filterMap t.report = [⟨.debug, .rules, "t: a -> b"⟩] := by decide +kernel
  have hall : ∀ k entry rule, Keyed.get? r k = some entry → t.rule? k = some rule →
      ∃ v, Action.applyAll t.layout rule.actions entry = .ok v := by
    intro k entry rule hk hrule
    have hrule' : rule = t.rules[0] := List.mem_singleton.mp (List.mem_of_find?_eq_some hrule)
    exact ⟨entry, by rw [hrule']; rfl⟩
  obtain ⟨o, ho, -, -, hlast⟩ := (applyRules_keeps_last t hr).2.1 hall
  have hbkey : t.target "b" = "b" := Table.target_of_rule?_none hb
  obtain ⟨v, hv, hget⟩ := hlast "b" (.bool true) rfl (by decide +kernel)
  rw [Table.outcome_of_rule?_none hb] at hv
  rw [hbkey, ← Except.ok.inj hv] at hget
  exact ⟨hr, o, hreport ▸ ho, hget⟩

end Record

end DeviceSnapshot
