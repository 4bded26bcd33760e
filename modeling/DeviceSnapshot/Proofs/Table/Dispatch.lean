import DeviceSnapshot.Proofs.Pattern.Suffix
import DeviceSnapshot.Proofs.Table.Compiling
import DeviceSnapshot.Record
import Mathlib.Data.List.Find
import Mathlib.Data.List.Nodup
import Mathlib.Data.List.Pairwise

/-!
# Which keys the rules of the built-in tables match

Each rule of a built-in table belongs to a device, and its pattern describes how the keys of the
device end. Such a key ends with the name of the device. The names are different and equally long,
so a key belongs to at most one rule, and then it does not matter in which order the rules come
(`Builtin.rules_dispatch`). A canonical key ends with the name of its device, too, so no other rule
can take it.

What the patterns of the built-in tables are read as is found out once (`Builtin.expressions`).
Afterwards the tables are compiled with a reader that looks their patterns up, which must give the
same tables (`TableSpec.compile_of_agree`).
-/

namespace DeviceSnapshot

/-! ## Devices and their keys -/

/-- A device that a built-in table has a rule for. -/
inductive Device where
  /-- A partition of the first disk. -/
  | partition (name : String)
  /-- A mapped device. -/
  | volume (name : String)
  /-- A disk of a remote target. -/
  | remote (name : String)

/-- The devices of the built-in tables, in the order of their rules. -/
def Builtin.devices : List Device := [
  .partition "sda1", .partition "sda2",
  .volume "dm-0", .volume "dm-1",
  .remote "sdae", .remote "sdaf", .remote "sdag", .remote "sdah"]

/-- The text is one or more decimal digits of any script. -/
def IsNumber (s : String) : Prop := s ≠ "" ∧ ∀ c ∈ s.toList, isDecimalDigit c = true

namespace Device

def name : Device → String
  | partition name | volume name | remote name => name

/-- The keys of a device. Anything may come before the path of the device; before that of a
partition at least one character must come, and the last one is no newline. -/
def Key : Device → String → Prop
  | partition name, key => ∃ (before : String) (c : Char),
      c ≠ '\n' ∧ key = before ++ String.singleton c ++ "/block/sda/" ++ name
  | volume name, key => ∃ before, key = before ++ "/devices/virtual/block/" ++ name
  | remote name, key => ∃ before host session t₁ t₂ t₃ l₁ l₂ l₃ l₄,
      (IsNumber host ∧ IsNumber session ∧ (IsNumber t₁ ∧ IsNumber t₂ ∧ IsNumber t₃) ∧
        IsNumber l₁ ∧ IsNumber l₂ ∧ IsNumber l₃ ∧ IsNumber l₄) ∧
      key = before ++ "/devices/platform/host" ++ host ++ "/session" ++ session ++
        "/target" ++ t₁ ++ ":" ++ t₂ ++ ":" ++ t₃ ++
        "/" ++ l₁ ++ ":" ++ l₂ ++ ":" ++ l₃ ++ ":" ++ l₄ ++ "/block/" ++ name

/-- How the keys of a device end, as a pattern says it. -/
def parts : Device → List Part
  | partition name => [.run .notNewline, .text ("/block/sda/" ++ name)]
  | volume name => [.text ("/devices/virtual/block/" ++ name)]
  | remote name => [
      .text "/devices/platform/host", .run .digit, .text "/session", .run .digit,
      .text "/target", .run .digit, .text ":", .run .digit, .text ":", .run .digit,
      .text "/", .run .digit, .text ":", .run .digit, .text ":", .run .digit,
      .text ":", .run .digit,
      .text ("/block/" ++ name)]

theorem spells_number_iff {ps : List Part} {word : String} : Spells (.run .digit :: ps) word ↔
    ∃ number rest, word = number ++ rest ∧ IsNumber number ∧ Spells ps rest := Iff.rfl

theorem exists_eq_append_singleton {s : String} (h : s ≠ "") :
    ∃ before c, s = before ++ String.singleton c := by
  have hs : s.toList ≠ [] := by simpa using h
  refine ⟨String.ofList s.toList.dropLast, s.toList.getLast hs, String.toList_inj.mp ?_⟩
  simp [List.dropLast_append_getLast]

/-- **The pattern of a device occurs in its keys only.** -/
theorem occurs_parts_iff {d : Device} {key : String} :
    (Expr.endsWith d.parts).Occurs key.toList ↔ d.Key key := by
  rw [Expr.occurs_endsWith_iff]
  rcases d with name | name | name
  · simp only [parts, spells_run_iff, spells_text_iff, spells_nil_iff, exists_eq_right,
      String.append_empty, CharSet.mem_notNewline_iff, Key]
    constructor
    · rintro ⟨before, _, rfl, first, _, rfl, ⟨hne, hfirst⟩, rfl⟩
      obtain ⟨init, c, rfl⟩ := exists_eq_append_singleton hne
      exact ⟨before ++ init, c, hfirst c (by simp), by simp only [String.append_assoc]⟩
    · rintro ⟨before, c, hc, rfl⟩
      refine ⟨before, _, ?_, String.singleton c, _, rfl, ⟨by simp, by simpa using hc⟩, rfl⟩
      simp only [String.append_assoc]
  · simp only [parts, spells_text_iff, spells_nil_iff, exists_eq_right, String.append_empty, Key,
      String.append_assoc]
  · simp only [parts, spells_text_iff, spells_number_iff, spells_nil_iff, exists_eq_right,
      String.append_empty, Key]
    -- Both sides name the same nine numbers, and only the brackets between the texts differ.
    constructor
    · rintro ⟨before, _, rfl, _, rfl, host, _, rfl, hhost, _, rfl, session, _, rfl, hsession,
        _, rfl, t₁, _, rfl, ht₁, _, rfl, t₂, _, rfl, ht₂, _, rfl, t₃, _, rfl, ht₃,
        _, rfl, l₁, _, rfl, hl₁, _, rfl, l₂, _, rfl, hl₂, _, rfl, l₃, _, rfl, hl₃,
        _, rfl, l₄, _, rfl, hl₄, rfl⟩
      refine ⟨before, host, session, t₁, t₂, t₃, l₁, l₂, l₃, l₄,
        ⟨hhost, hsession, ⟨ht₁, ht₂, ht₃⟩, hl₁, hl₂, hl₃, hl₄⟩, ?_⟩
      simp only [String.append_assoc]
    · rintro ⟨before, host, session, t₁, t₂, t₃, l₁, l₂, l₃, l₄,
        ⟨hhost, hsession, ⟨ht₁, ht₂, ht₃⟩, hl₁, hl₂, hl₃, hl₄⟩, rfl⟩
      refine ⟨before, _, ?_, _, rfl, host, _, rfl, hhost, _, rfl, session, _, rfl, hsession,
        _, rfl, t₁, _, rfl, ht₁, _, rfl, t₂, _, rfl, ht₂, _, rfl, t₃, _, rfl, ht₃,
        _, rfl, l₁, _, rfl, hl₁, _, rfl, l₂, _, rfl, hl₂, _, rfl, l₃, _, rfl, hl₃,
        _, rfl, l₄, _, rfl, hl₄, rfl⟩
      simp only [String.append_assoc]

theorem Key.name_suffix {d : Device} {key : String} (h : d.Key key) :
    d.name.toList <:+ key.toList := by
  have happend : ∃ before, key = before ++ d.name := by
    rcases d with name | name | name
    · obtain ⟨before, c, -, rfl⟩ := h
      exact ⟨_, rfl⟩
    · obtain ⟨before, rfl⟩ := h
      exact ⟨_, rfl⟩
    · obtain ⟨before, host, session, t₁, t₂, t₃, l₁, l₂, l₃, l₄, -, rfl⟩ := h
      exact ⟨_, rfl⟩
  obtain ⟨before, rfl⟩ := happend
  exact ⟨before.toList, String.toList_append.symm⟩

theorem name_eq_of_suffix {d d' : Device} {key : String} (hlen : d.name.length = d'.name.length)
    (h : d.name.toList <:+ key.toList) (h' : d'.name.toList <:+ key.toList) :
    d.name = d'.name := by
  rw [← String.length_toList, ← String.length_toList] at hlen
  exact String.toList_inj.mp
    ((List.suffix_of_suffix_length_le h h' hlen.le).eq_of_length hlen)

end Device

/-! ## Rules -/

namespace Table

variable {t : Table} {rules : List Rule}

/-- Where a key matches one rule at most, the order of the rules does not matter. -/
theorem rule?_of_perm (h : rules.Perm t.rules) {key : String}
    (hkey : t.rules.Pairwise fun r r' ↦
      ¬(r.keyPattern.isMatch key = true ∧ r'.keyPattern.isMatch key = true)) :
    ({ t with rules } : Table).rule? key = t.rule? key := by
  have hsymm : Std.Symm fun r r' : Rule ↦
      ¬(r.keyPattern.isMatch key = true ∧ r'.keyPattern.isMatch key = true) :=
    ⟨fun _ _ hn h ↦ hn h.symm⟩
  refine (List.find?_eq_find?_of_perm h.symm ?_).symm
  rintro r ⟨hr, hmatch⟩ r' ⟨hr', hmatch'⟩
  by_contra hne
  exact hkey.forall hr hr' hne ⟨hmatch, hmatch'⟩

end Table

/-- The rules of a table are only ever asked which of them a key belongs to. -/
theorem Record.applyRules_congr {t : Table} {rules : List Rule}
    (h : ∀ key, ({ t with rules } : Table).rule? key = t.rule? key) (r : Record) :
    applyRules { t with rules } r = applyRules t r := by
  suffices ∀ output, applyFrom { t with rules } output r = applyFrom t output r from this []
  induction r with
  | nil => exact fun _ ↦ rfl
  | cons e r ih =>
    intro output
    rw [applyFrom, applyFrom, h]
    simp only [ih]
    rfl

namespace Builtin

variable {b : Builtin} {t : Table}

/-! ### Patterns at hand -/

/-- The paths whose links are fixed. -/
def links : List String := [
  "/dev/disk/by-uuid", "/dev/disk/by-id/lvm-pv-uuid",
  "/dev/disk/by-id/dm-uuid-LVM", "/dev/disk/by-uuid/"]

/-- The patterns of the built-in tables with the expressions that they write. -/
def expressions : List (String × Expr) :=
  ((rules fun _ ↦ []).map (·.keyPattern)).zip (devices.map fun d ↦ .endsWith d.parts) ++
    links.map fun link ↦ (link, .literal link.toList)

/-- A reader for the built-in tables only. It looks a pattern up instead of reading it, so that it
costs little to compute with the tables. -/
def knownReader : PatternReader := fun source ↦ (expressions.lookup source).map Expr.isMatch

theorem ofText?_eq_lookup :
    ∀ source ∈ expressions.map (·.1), Expr.ofText? source = expressions.lookup source := by
  decide +kernel

theorem mem_expressions_of_mem_patterns (b : Builtin) :
    ∀ source ∈ b.spec.patterns, source ∈ expressions.map (·.1) := by
  rcases b <;> decide +kernel

/-- **It is enough to look the patterns of a built-in table up.** -/
theorem exists_table_of {P : Table → Prop} (b : Builtin)
    (h : ∃ t ∈ (b.spec.compile knownReader).toOption, P t) : ∃ t, b.table = .ok t ∧ P t := by
  obtain ⟨t, ht, hP⟩ := h
  have hread : ∀ source ∈ b.spec.patterns, knownReader source = Expr.reader source := by
    intro source hsource
    rw [knownReader, Expr.reader, ofText?_eq_lookup _ (b.mem_expressions_of_mem_patterns _ hsource)]
  have hvalid : b.spec.validate = .ok () := by rcases b <;> decide +kernel
  have hcompile := TableSpec.compile_of_agree hread (toOption_eq_some_iff.mp ht)
  exact ⟨t, bind_eq_ok_iff.mpr ⟨(), hvalid, hcompile⟩, hP⟩

theorem exists_table (b : Builtin) : ∃ t, b.table = .ok t := by
  have h : ∃ t ∈ (b.spec.compile knownReader).toOption, True := by rcases b <;> decide +kernel
  obtain ⟨t, ht, -⟩ := b.exists_table_of h
  exact ⟨t, ht⟩

/-! ### Keys -/

theorem keyPatterns_spec (b : Builtin) :
    b.spec.rules.map (·.keyPattern) = (rules fun _ ↦ []).map (·.keyPattern) := by
  rcases b <;> rfl

/-- The pattern of each rule is written so that it is read as that of the device. -/
theorem ofText?_keyPattern : (rules fun _ ↦ []).map (fun r ↦ Expr.ofText? r.keyPattern) =
    devices.map fun d ↦ some (.endsWith d.parts) := by
  have hmem : ∀ r ∈ rules fun _ ↦ [], r.keyPattern ∈ expressions.map (·.1) := by decide +kernel
  calc (rules fun _ ↦ []).map (fun r ↦ Expr.ofText? r.keyPattern)
      = (rules fun _ ↦ []).map fun r ↦ expressions.lookup r.keyPattern :=
        List.map_congr_left fun r hr ↦ ofText?_eq_lookup _ (hmem r hr)
    _ = devices.map fun d ↦ some (.endsWith d.parts) := by decide +kernel

theorem isMatch_parts_iff {d : Device} (hd : d ∈ devices) {key : String} :
    (Expr.endsWith d.parts).isMatch key = true ↔ d.Key key := by
  have hmem : some (Expr.endsWith d.parts) ∈
      (rules fun _ ↦ []).map fun r ↦ Expr.ofText? r.keyPattern := by
    rw [ofText?_keyPattern]
    exact List.mem_map.mpr ⟨d, hd, rfl⟩
  obtain ⟨r, -, hread⟩ := List.mem_map.mp hmem
  rw [Expr.isMatch_iff_occurs hread, Device.occurs_parts_iff]

theorem isMatches_of_table (h : b.table = .ok t) :
    t.rules.map (·.keyPattern.isMatch) = devices.map fun d ↦ (Expr.endsWith d.parts).isMatch := by
  have hcompile := compile_of_table h
  have hread := (TableSpec.compile_eq_ok_iff.mp hcompile).2
  refine List.map_injective_iff.mpr (fun _ _ ↦ Option.some.inj) ?_
  calc (t.rules.map (·.keyPattern.isMatch)).map some
      = (t.rules.map (·.keyPattern.source)).map Expr.reader := by
        rw [List.map_map, List.map_map]
        exact List.map_congr_left fun rule hrule ↦ (hread.of_mem hrule _ List.mem_cons_self).symm
    _ = ((rules fun _ ↦ []).map fun r ↦ Expr.ofText? r.keyPattern).map (·.map Expr.isMatch) := by
        rw [TableSpec.sources_of_compile hcompile, keyPatterns_spec, List.map_map, List.map_map]
        rfl
    _ = (devices.map fun d ↦ (Expr.endsWith d.parts).isMatch).map some := by
        rw [ofText?_keyPattern, List.map_map, List.map_map]
        rfl

theorem isMatch_of_table (h : b.table = .ok t) (key : String) :
    List.Forall₂ (fun (rule : Rule) (d : Device) ↦
      rule.keyPattern.isMatch key = true ↔ d.Key key) t.rules devices := by
  have heq : List.Forall₂ (fun (rule : Rule) (d : Device) ↦
      rule.keyPattern.isMatch = (Expr.endsWith d.parts).isMatch) t.rules devices :=
    List.forall₂_map_right_iff.mp (List.forall₂_map_left_iff.mp
      (List.forall₂_eq_eq_eq ▸ isMatches_of_table h))
  have hdevices := (List.forall₂_and_left devices t.rules).mpr ⟨fun _ hd ↦ hd, heq.flip⟩
  refine (hdevices.imp fun d rule hrule ↦ ?_).flip
  rw [flip, hrule.2, isMatch_parts_iff hrule.1]

theorem length_name : ∀ d ∈ devices, d.name.length = 4 := by decide

theorem nodup_names : (devices.map Device.name).Nodup := by decide

/-- A text ends with the name of one device at most. -/
theorem eq_of_name_suffix {d d' : Device} {key : String} (hd : d ∈ devices) (hd' : d' ∈ devices)
    (h : d.name.toList <:+ key.toList) (h' : d'.name.toList <:+ key.toList) : d = d' := by
  have hlen : d.name.length = d'.name.length := (length_name d hd).trans (length_name d' hd').symm
  exact List.inj_on_of_nodup_map nodup_names hd hd' (Device.name_eq_of_suffix hlen h h')

/-- No key belongs to two rules. -/
theorem not_isMatch_and_isMatch (h : b.table = .ok t) (key : String) :
    t.rules.Pairwise fun r r' ↦
      ¬(r.keyPattern.isMatch key = true ∧ r'.keyPattern.isMatch key = true) := by
  suffices (t.rules.map (·.keyPattern.isMatch)).Pairwise fun m m' ↦
      ¬(m key = true ∧ m' key = true) from List.pairwise_map.mp this
  rw [isMatches_of_table h, List.pairwise_map]
  refine List.Pairwise.imp_of_mem (fun {d d'} hd hd' hne hkey ↦ ?_)
    (List.Nodup.of_map _ nodup_names)
  rw [isMatch_parts_iff hd, isMatch_parts_iff hd'] at hkey
  exact hne (eq_of_name_suffix hd hd' hkey.1.name_suffix hkey.2.name_suffix)

/-! ### Canonical keys -/

theorem name_suffix_of_table (h : b.table = .ok t) : List.Forall₂ (fun (rule : Rule) (d : Device) ↦
    d.name.toList <:+ rule.canonicalKey.toList) t.rules devices := by
  have hspec : b.spec.rules.map (·.canonicalKey) = (rules fun _ ↦ []).map (·.canonicalKey) := by
    rcases b <;> rfl
  have hzip : ∀ x ∈ ((rules fun _ ↦ []).map (·.canonicalKey)).zip devices,
      x.2.name.toList <:+ x.1.toList := by decide +kernel
  have hkeys : List.Forall₂ (fun (key : String) (d : Device) ↦ d.name.toList <:+ key.toList)
      ((rules fun _ ↦ []).map (·.canonicalKey)) devices :=
    List.forall₂_iff_zip.mpr ⟨rfl, fun hmem ↦ hzip _ hmem⟩
  rw [← hspec, ← TableSpec.canonicalKeys_of_compile (compile_of_table h)] at hkeys
  exact List.forall₂_map_left_iff.mp hkeys

/-- **A canonical key belongs to its own rule or to none,** since it ends with the name of a device
as the keys of that device do. -/
theorem rule?_canonicalKey (h : b.table = .ok t) {rule : Rule} (hrule : rule ∈ t.rules) :
    t.rule? rule.canonicalKey = none ∨ t.rule? rule.canonicalKey = some rule := by
  obtain ⟨i, hi, rfl⟩ := List.getElem_of_mem hrule
  rcases hfind : t.rule? t.rules[i].canonicalKey with _ | rule'
  · exact .inl rfl
  · obtain ⟨j, hj, rfl⟩ := List.getElem_of_mem (List.mem_of_find?_eq_some hfind)
    have hlength := (name_suffix_of_table h).length_eq
    have hname : devices[i].name.toList <:+ t.rules[i].canonicalKey.toList :=
      (name_suffix_of_table h).get hi (hlength ▸ hi)
    have hmatch : t.rules[j].keyPattern.isMatch t.rules[i].canonicalKey = true :=
      (List.find?_eq_some_iff_append.mp hfind).1
    have hkey : devices[j].Key t.rules[i].canonicalKey :=
      ((isMatch_of_table h _).get hj (hlength ▸ hj)).mp hmatch
    have hdevice : devices[i] = devices[j] :=
      eq_of_name_suffix (List.getElem_mem _) (List.getElem_mem _) hname hkey.name_suffix
    obtain rfl : i = j := (List.Nodup.of_map _ nodup_names).getElem_inj_iff.mp hdevice
    exact .inr rfl

/-! ### Dispatch -/

/-- **Each rule of a built-in table matches the keys of its device and no others.** So a key belongs
to one rule at most, and neither the rule of a key nor the outcome of a run depends on the order of
the rules. -/
theorem rules_dispatch (b : Builtin) : ∃ t, b.table = .ok t ∧
    (∀ key, List.Forall₂ (fun (rule : Rule) (d : Device) ↦
      rule.keyPattern.isMatch key = true ↔ d.Key key) t.rules devices) ∧
    (∀ key, t.rules.Pairwise fun r r' ↦
      ¬(r.keyPattern.isMatch key = true ∧ r'.keyPattern.isMatch key = true)) ∧
    ∀ rules : List Rule, rules.Perm t.rules →
      (∀ key, ({ t with rules } : Table).rule? key = t.rule? key) ∧
      ∀ r : Record, Record.applyRules { t with rules } r = Record.applyRules t r := by
  obtain ⟨t, ht⟩ := b.exists_table
  refine ⟨t, ht, isMatch_of_table ht, not_isMatch_and_isMatch ht, fun rules hrules ↦ ?_⟩
  have hrule := fun key ↦ Table.rule?_of_perm hrules (not_isMatch_and_isMatch ht key)
  exact ⟨hrule, Record.applyRules_congr hrule⟩

/-- The rules from last to first find the rule of a partition, too. -/
theorem rules_dispatch_reverse : ∃ t, Builtin.udev.table = .ok t ∧
    ∃ rule, ({ t with rules := t.rules.reverse } : Table).rule? "/sys/block/sda/sda1" = some rule ∧
      t.rule? "/sys/block/sda/sda1" = some rule ∧ rule.canonicalKey = "/block/sda/sda1" := by
  obtain ⟨t, ht, rule, hrule, hcanonical⟩ := exists_table_of
    (P := fun t ↦ ∃ rule ∈ t.rule? "/sys/block/sda/sda1", rule.canonicalKey = "/block/sda/sda1")
    .udev (by decide +kernel)
  obtain ⟨t', ht', -, -, hperm⟩ := rules_dispatch .udev
  obtain rfl := Except.ok.inj (ht.symm.trans ht')
  exact ⟨t, ht, rule, ((hperm _ t.rules.reverse_perm).1 _).trans hrule, hrule, hcanonical⟩

end Builtin

end DeviceSnapshot
