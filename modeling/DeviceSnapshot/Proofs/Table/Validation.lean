import DeviceSnapshot.Proofs.Record.Collision
import DeviceSnapshot.Proofs.Table.Compiling
import DeviceSnapshot.Table.Reader

/-!
# What validation rules out

A table is valid exactly when every canonical key is non-empty and no two rules declare the same
one. Otherwise the fault is that of the first rule with an empty key or with the key of a rule
before it.

The check goes through the rules and carries the keys that it has seen. Its invariant is about the
rules passed so far, which are valid by themselves: either the next rule is the first one at fault,
or it may be added to them (`checkKeys_spec`). From this everything is read off, because no rule of
valid rules is at fault.

A table that was validated and then compiled has rules with different canonical keys. So entries
under two keys come together in two ways only: one rule takes both of them, or a rule takes one of
them to the other, which no rule matches (`Table.meet_of_target_eq`).
-/

namespace DeviceSnapshot

theorem eq_of_nodup_map {α β : Type} {f : α → β} {xs : List α} {i j : Nat} {x y : α}
    (hxs : (xs.map f).Nodup) (hi : xs[i]? = some x) (hj : xs[j]? = some y) (h : f x = f y) :
    i = j := by
  have hvalues : (xs.map f)[i]? = (xs.map f)[j]? := by
    rw [List.getElem?_map, List.getElem?_map, hi, hj, Option.map_some, Option.map_some, h]
  have hlt : i < (xs.map f).length := by
    rw [List.length_map]
    exact (List.getElem?_eq_some_iff.mp hi).1
  exact (List.getElem?_inj hlt hxs).mp hvalues

namespace RuleSpec

variable {name : String} {rules passed rest : List RuleSpec} {r : RuleSpec} {i j : Nat}
  {fault fault' : TableFault}

/-- Every canonical key is non-empty, and no two rules declare the same one. -/
structure Valid (rules : List RuleSpec) : Prop where
  ne_empty : ∀ r ∈ rules, r.canonicalKey ≠ ""
  nodup : (rules.map (·.canonicalKey)).Nodup

/-- What is wrong with the rule at a position: its key is empty, or a rule before it has the same
key. -/
inductive FaultAt (name : String) (rules : List RuleSpec) (i : Nat) : TableFault → Prop
  | emptyKey {r : RuleSpec} (hr : rules[i]? = some r) (h : r.canonicalKey = "") :
    FaultAt name rules i (.emptyCanonicalKey name (i + 1))
  | repeatedKey {r : RuleSpec} (hr : rules[i]? = some r)
    (h : ∃ j < i, ∃ r', rules[j]? = some r' ∧ r'.canonicalKey = r.canonicalKey) :
    FaultAt name rules i (.duplicateCanonicalKey name r.canonicalKey)

structure FirstFaultAt (name : String) (rules : List RuleSpec) (i : Nat) (fault : TableFault) :
    Prop where
  faultAt : FaultAt name rules i fault
  before : ∀ j < i, ∀ fault', ¬FaultAt name rules j fault'

theorem Valid.not_faultAt (h : Valid rules) : ¬FaultAt name rules i fault := by
  rintro (⟨hr, hempty⟩ | ⟨hr, j, hj, r', hr', hkey⟩)
  · exact h.ne_empty _ (List.mem_of_getElem? hr) hempty
  · exact hj.ne (eq_of_nodup_map h.nodup hr' hr hkey)

theorem FaultAt.of_append (h : FaultAt name (passed ++ rest) i fault) (hi : i < passed.length) :
    FaultAt name passed i fault := by
  rcases h with ⟨hr, hempty⟩ | ⟨hr, j, hj, r', hr', hkey⟩
  · rw [List.getElem?_append_left hi] at hr
    exact .emptyKey hr hempty
  · rw [List.getElem?_append_left hi] at hr
    rw [List.getElem?_append_left (hj.trans hi)] at hr'
    exact .repeatedKey hr ⟨j, hj, r', hr', hkey⟩

theorem FirstFaultAt.unique (h : FirstFaultAt name rules i fault)
    (h' : FirstFaultAt name rules j fault') : fault = fault' := by
  obtain rfl : i = j := by
    rcases Nat.lt_trichotomy i j with hlt | heq | hlt
    · exact absurd h.faultAt (h'.before i hlt fault)
    · exact heq
    · exact absurd h'.faultAt (h.before j hlt fault')
  -- An empty key that is repeated is at fault where it stands first.
  have hempty : ∀ r, rules[i]? = some r → r.canonicalKey = "" →
      ¬∃ j < i, ∃ r', rules[j]? = some r' ∧ r'.canonicalKey = r.canonicalKey := by
    rintro r - hempty ⟨j, hj, r', hr', hkey⟩
    exact h.before j hj _ (.emptyKey hr' (hkey.trans hempty))
  rcases h.faultAt with ⟨hr, hkey⟩ | ⟨hr, hrepeated⟩
  · rcases h'.faultAt with ⟨hr', -⟩ | ⟨hr', hrepeated⟩
    · rfl
    · obtain rfl := Option.some.inj (hr.symm.trans hr')
      exact absurd hrepeated (hempty _ hr hkey)
  · rcases h'.faultAt with ⟨hr', hkey⟩ | ⟨hr', -⟩
    · obtain rfl := Option.some.inj (hr.symm.trans hr')
      exact absurd hrepeated (hempty _ hr hkey)
    · obtain rfl := Option.some.inj (hr.symm.trans hr')
      rfl

/-- The rule after valid rules may be added to them, or it is the first at fault. -/
theorem Valid.append_or_firstFaultAt (h : Valid passed) (name : String) (r : RuleSpec)
    (rest : List RuleSpec) :
    (r.canonicalKey = "" ∧ FirstFaultAt name (passed ++ r :: rest) passed.length
      (.emptyCanonicalKey name (passed.length + 1))) ∨
    (r.canonicalKey ≠ "" ∧ r.canonicalKey ∈ passed.map (·.canonicalKey) ∧
      FirstFaultAt name (passed ++ r :: rest) passed.length
        (.duplicateCanonicalKey name r.canonicalKey)) ∨
    (r.canonicalKey ≠ "" ∧ r.canonicalKey ∉ passed.map (·.canonicalKey) ∧
      Valid (passed ++ [r])) := by
  have hr : (passed ++ r :: rest)[passed.length]? = some r := by simp
  have hbefore : ∀ j < passed.length, ∀ fault, ¬FaultAt name (passed ++ r :: rest) j fault :=
    fun j hj fault hfault ↦ h.not_faultAt (hfault.of_append hj)
  by_cases hempty : r.canonicalKey = ""
  · exact .inl ⟨hempty, .emptyKey hr hempty, hbefore⟩
  by_cases hmem : r.canonicalKey ∈ passed.map (·.canonicalKey)
  · obtain ⟨r', hr', hkey⟩ := List.mem_map.mp hmem
    obtain ⟨j, hj⟩ := List.mem_iff_getElem?.mp hr'
    have hlt : j < passed.length := (List.getElem?_eq_some_iff.mp hj).1
    have hj' : (passed ++ r :: rest)[j]? = some r' := (List.getElem?_append_left hlt).trans hj
    exact .inr (.inl ⟨hempty, hmem, .repeatedKey hr ⟨j, hlt, r', hj', hkey⟩, hbefore⟩)
  · refine .inr (.inr ⟨hempty, hmem, ?_, ?_⟩)
    · rw [List.forall_mem_append, List.forall_mem_singleton]
      exact ⟨h.ne_empty, hempty⟩
    · rw [List.map_append, List.map_singleton, List.nodup_append]
      refine ⟨h.nodup, List.pairwise_singleton _ _, fun key hkey key' hkey' heq ↦ ?_⟩
      rw [heq, List.mem_singleton.mp hkey'] at hkey
      exact hmem hkey

end RuleSpec

namespace TableSpec

open RuleSpec

variable {name : String} {rules passed : List RuleSpec} {fault : TableFault} {t : TableSpec}

/-- **The check finds the first fault.** With the rules passed so far valid, it goes on to pass all
others or fails with the first fault of all rules. -/
theorem checkKeys_spec (h : Valid passed) {before : List String}
    (hbefore : ∀ key, key ∈ before ↔ key ∈ passed.map (·.canonicalKey)) :
    (checkKeys name before (passed.length + 1) rules = .ok () ∧ Valid (passed ++ rules)) ∨
      ∃ i fault, checkKeys name before (passed.length + 1) rules = .error fault ∧
        FirstFaultAt name (passed ++ rules) i fault := by
  induction rules generalizing passed before with
  | nil => exact .inl ⟨rfl, by rwa [List.append_nil]⟩
  | cons r rules ih =>
    rw [checkKeys]
    rcases h.append_or_firstFaultAt name r rules with ⟨hempty, hfirst⟩ | ⟨hempty, hmem, hfirst⟩ |
      ⟨hempty, hmem, hvalid⟩
    · rw [if_pos hempty]
      exact .inr ⟨_, _, rfl, hfirst⟩
    · rw [if_neg hempty, if_pos ((hbefore _).mpr hmem)]
      exact .inr ⟨_, _, rfl, hfirst⟩
    · have hbefore' : ∀ key, key ∈ r.canonicalKey :: before ↔
          key ∈ (passed ++ [r]).map (·.canonicalKey) := by
        intro key
        rw [List.mem_cons, hbefore, List.map_append, List.mem_append, List.map_singleton,
          List.mem_singleton, or_comm]
      have hrest := ih hvalid hbefore'
      rw [List.length_append, List.append_assoc] at hrest
      rw [if_neg hempty, if_neg fun hseen ↦ hmem ((hbefore _).mp hseen)]
      exact hrest

theorem validate_cases (t : TableSpec) : (t.validate = .ok () ∧ Valid t.rules) ∨
    ∃ i fault, t.validate = .error fault ∧ FirstFaultAt t.name t.rules i fault := by
  have hnone : Valid [] := ⟨by simp, by simp⟩
  exact checkKeys_spec hnone (by simp)

theorem validate_eq_ok_iff : t.validate = .ok () ↔ Valid t.rules := by
  rcases t.validate_cases with ⟨hok, hvalid⟩ | ⟨i, fault, herror, hfirst⟩
  · exact iff_of_true hok hvalid
  · refine iff_of_false (by simp [herror]) fun hvalid ↦ hvalid.not_faultAt hfirst.faultAt

theorem validate_eq_error_iff :
    t.validate = .error fault ↔ ∃ i, FirstFaultAt t.name t.rules i fault := by
  rcases t.validate_cases with ⟨hok, hvalid⟩ | ⟨i, fault', herror, hfirst⟩
  · exact iff_of_false (by simp [hok]) fun ⟨i, hfirst⟩ ↦ hvalid.not_faultAt hfirst.faultAt
  · rw [herror, Except.error.injEq]
    constructor
    · rintro rfl
      exact ⟨i, hfirst⟩
    · rintro ⟨j, hfirst'⟩
      exact hfirst.unique hfirst'

theorem validate_of_parse {text label : String} (h : parse text label = .ok t) :
    t.validate = .ok () := by
  rw [parse] at h
  split at h
  · nomatch h
  · obtain ⟨⟨⟩, hvalid, rfl⟩ := map_eq_ok_iff.mp h
    exact hvalid

end TableSpec

/-! ## Where entries meet -/

namespace Table

variable {t : Table} {key key' : String} {rule : Rule}

/-- The first rule that matches a key, and its position. -/
structure FirstMatch (t : Table) (key : String) (i : Nat) (rule : Rule) : Prop where
  getElem?_eq : t.rules[i]? = some rule
  isMatch : rule.keyPattern.isMatch key = true
  before : ∀ j < i, ∀ rule', t.rules[j]? = some rule' → rule'.keyPattern.isMatch key = false

theorem rule?_eq_some_iff : t.rule? key = some rule ↔ ∃ i, t.FirstMatch key i rule := by
  rw [rule?, List.find?_eq_some_iff_getElem]
  constructor
  · rintro ⟨hmatch, i, hi, hrule, hbefore⟩
    refine ⟨i, List.getElem?_eq_some_iff.mpr ⟨hi, hrule⟩, hmatch, fun j hj rule' hrule' ↦ ?_⟩
    obtain ⟨hj', rfl⟩ := List.getElem?_eq_some_iff.mp hrule'
    simpa using hbefore j hj
  · rintro ⟨i, hrule, hmatch, hbefore⟩
    obtain ⟨hi, hrule⟩ := List.getElem?_eq_some_iff.mp hrule
    refine ⟨hmatch, i, hi, hrule, fun j hj ↦ ?_⟩
    have hj' : t.rules[j]? = some t.rules[j] := List.getElem?_eq_getElem (hj.trans hi)
    simpa using hbefore j hj _ hj'

/-- How two keys come to have one target: by one rule, or by a rule that takes one of them to the
other. -/
inductive Meet (t : Table) (key key' : String) : Prop
  | oneRule {i : Nat} {rule : Rule} (h : t.FirstMatch key i rule) (h' : t.FirstMatch key' i rule)
  | ontoSecond {rule : Rule} (h : t.rule? key = some rule) (h' : t.rule? key' = none)
    (heq : key' = rule.canonicalKey)
  | ontoFirst {rule : Rule} (h : t.rule? key = none) (h' : t.rule? key' = some rule)
    (heq : key = rule.canonicalKey)

/-- **Two rules with different canonical keys never bring keys together.** -/
theorem meet_of_target_eq (ht : (t.rules.map (·.canonicalKey)).Nodup) (hne : key ≠ key')
    (h : t.target key = t.target key') : t.Meet key key' := by
  rcases hrule : t.rule? key with _ | rule
  · rw [target_of_rule?_none hrule] at h
    rcases hrule' : t.rule? key' with _ | rule'
    · rw [target_of_rule?_none hrule'] at h
      exact absurd h hne
    · rw [target_of_rule? hrule'] at h
      exact .ontoFirst hrule hrule' h
  · rw [target_of_rule? hrule] at h
    rcases hrule' : t.rule? key' with _ | rule'
    · rw [target_of_rule?_none hrule'] at h
      exact .ontoSecond hrule hrule' h.symm
    · rw [target_of_rule? hrule'] at h
      obtain ⟨i, hi⟩ := rule?_eq_some_iff.mp hrule
      obtain ⟨j, hj⟩ := rule?_eq_some_iff.mp hrule'
      obtain rfl := eq_of_nodup_map ht hi.getElem?_eq hj.getElem?_eq h
      obtain rfl := Option.some.inj (hi.getElem?_eq.symm.trans hj.getElem?_eq)
      exact .oneRule hi hj

end Table

namespace TableSpec

open RuleSpec

/-- **Validation is exact.** A table passes exactly when its canonical keys are non-empty and
different, and otherwise the first rule at fault is reported. Every table that is read from a text
passes. When a table that passes is compiled, with any reader of patterns, and applied to a record,
the keys of the result are the targets of the keys; and two keys have one target only if one rule is
the first to match both, or a rule takes one of them to the other, which none matches. -/
theorem validate_exact (t : TableSpec) :
    (t.validate = .ok () ↔ (∀ r ∈ t.rules, r.canonicalKey ≠ "") ∧
      (t.rules.map (·.canonicalKey)).Nodup) ∧
    (∀ fault, t.validate = .error fault ↔ ∃ i, FaultAt t.name t.rules i fault ∧
      ∀ j < i, ∀ fault', ¬FaultAt t.name t.rules j fault') ∧
    (∀ text label, parse text label = .ok t → t.validate = .ok ()) ∧
    ∀ (read : PatternReader) t', t.validate = .ok () → t.compile read = .ok t' →
      (∀ r o : Record, r.Ordered → (Record.applyRules t' r).1 = .ok o →
        ∀ key, key ∈ o.keys ↔ ∃ k ∈ r.keys, t'.target k = key) ∧
      ∀ key key', key ≠ key' → t'.target key = t'.target key' → t'.Meet key key' := by
  refine ⟨?_, fun fault ↦ ?_, fun text label ↦ validate_of_parse, ?_⟩
  · rw [validate_eq_ok_iff]
    exact ⟨fun h ↦ ⟨h.ne_empty, h.nodup⟩, fun h ↦ ⟨h.1, h.2⟩⟩
  · rw [validate_eq_error_iff]
    exact exists_congr fun i ↦ ⟨fun h ↦ ⟨h.faultAt, h.before⟩, fun h ↦ ⟨h.1, h.2⟩⟩
  · intro read t' hvalid hcompile
    have hnodup := (validate_eq_ok_iff.mp hvalid).nodup
    rw [← canonicalKeys_of_compile hcompile] at hnodup
    refine ⟨fun r o hr h key ↦ ?_, fun key key' ↦ Table.meet_of_target_eq hnodup⟩
    obtain ⟨hok, hcol⟩ := Record.collected_of_applyRules hr h
    exact hcol.mem_keys_iff hok key

/-- The key `g` is taken to `x`, and `x` is also a key that no rule matches. So the two entries of a
record with these keys become one. -/
theorem validate_exact_meeting :
    let t : TableSpec := { name := "t", rules := [⟨"g", "x", []⟩, ⟨"i", "y", []⟩] }
    let t' : Table := {
      name := "t"
      layout := { encoding := .plain, fields := {} }
      rules := [⟨⟨"g", Expr.isMatch (.chars (.single 'g'))⟩, "x", []⟩,
        ⟨⟨"i", Expr.isMatch (.chars (.single 'i'))⟩, "y", []⟩] }
    let r : Record := [("g", .bool false), ("x", .bool true)]
    t.validate = .ok () ∧ t.compile Expr.reader = .ok t' ∧
      (∃ o, (Record.applyRules t' r).1 = .ok o ∧ ∀ key ∈ o.keys, key = "x") ∧
      "g" ≠ "x" ∧ t'.target "g" = t'.target "x" ∧ t'.Meet "g" "x" := by
  intro t t' r
  have hvalid : t.validate = .ok () := by decide +kernel
  have hg : Expr.ofText? "g" = some (.chars (.single 'g')) := by decide +kernel
  have hi : Expr.ofText? "i" = some (.chars (.single 'i')) := by decide +kernel
  have hread : t'.ReadBy Expr.reader := List.forall_iff_forall_mem.mp
    ⟨Pattern.readBy_reader hg, Pattern.readBy_reader hi⟩
  have hcompile : t.compile Expr.reader = .ok t' := compile_eq_ok_iff.mpr ⟨rfl, hread⟩
  have hr : r.Ordered := by decide +kernel
  have ho : (Record.applyRules t' r).1 = .ok [("x", .bool true)] := rfl
  have hx : t'.target "x" = "x" := by decide +kernel
  have htarget : t'.target "g" = t'.target "x" := by decide +kernel
  obtain ⟨hkeys, hmeet⟩ := (validate_exact t).2.2.2 Expr.reader t' hvalid hcompile
  refine ⟨hvalid, hcompile, ⟨_, ho, fun key hkey ↦ ?_⟩, by decide, htarget,
    hmeet "g" "x" (by decide) htarget⟩
  obtain ⟨k, hk, rfl⟩ := (hkeys r _ hr ho key).mp hkey
  rcases List.mem_pair.mp hk with rfl | rfl
  · exact htarget.trans hx
  · exact hx

end TableSpec

end DeviceSnapshot
