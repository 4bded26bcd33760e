import DeviceSnapshot.Proofs.Json.Nesting
import DeviceSnapshot.Proofs.Record.RoundTrip

/-!
# Which texts read back

Printing and reading are inverse to each other exactly as far as the reader goes into nested
containers. A value that nests no deeper than `Json.maxDepth` comes back as it was, so its text
belongs to no other value; the text of every other value is refused. Both hold for a record as well,
whose text is that of the object with its entries. Floating-point numbers are left out, since
whether they come back is a question of rounding.
-/

namespace DeviceSnapshot

namespace Json

/-! ## Boxes -/

/-- A value inside the given number of arrays. -/
def boxed : Nat → Json → Json
  | 0, v => v
  | n + 1, v => .arr [boxed n v]

theorem depth_boxed (n : Nat) (v : Json) : (boxed n v).depth = v.depth + n := by
  induction n with
  | zero => rfl
  | succ n ih => rw [boxed, depth, depthItems, depthItems, Nat.max_zero, ih, Nat.add_assoc]

theorem ordered_boxed {v : Json} (hv : v.Ordered) (n : Nat) : (boxed n v).Ordered := by
  induction n with
  | zero => exact hv
  | succ n ih => exact ⟨ih, trivial⟩

theorem floatFree_boxed {v : Json} (hv : v.FloatFree) (n : Nat) : (boxed n v).FloatFree := by
  induction n with
  | zero => exact hv
  | succ n ih => exact ⟨ih, trivial⟩

end Json

namespace Record

open Json

variable {v w : Json} {r : Record}

theorem value_pretty (hv : v.Ordered) (hfloat : v.FloatFree) :
    value v.pretty = if v.depth ≤ maxDepth then .ok v else .error .undecodable := by
  split_ifs with hdepth
  · rw [value, decode?_pretty ⟨⟨hv, hdepth⟩, hfloat⟩]
  · rw [value, decode?_pretty_of_not_fits hv hfloat fun h ↦ hdepth h.depth_le]

theorem decode_text_eq (hr : (Json.obj r).Ordered) (hfloat : (Json.obj r).FloatFree) :
    decode (text r) = if (Json.obj r).depth ≤ maxDepth then .ok r else .error .undecodable := by
  rw [decode, text_of_ordered hr.1, value_pretty hr hfloat]
  split_ifs <;> rfl

theorem eq_of_pretty_eq (hv : v.Ordered) (hvfloat : v.FloatFree) (hdepth : v.depth ≤ maxDepth)
    (hw : w.Ordered) (hwfloat : w.FloatFree) (h : v.pretty = w.pretty) : v = w := by
  have hvalue : value v.pretty = .ok v := by rw [value_pretty hv hvfloat, if_pos hdepth]
  rw [h, value_pretty hw hwfloat] at hvalue
  split_ifs at hvalue
  exact (Except.ok.inj hvalue).symm

/-- **Reading undoes printing, up to the depth that can be read.** A value without floating-point
numbers whose members are in order at every level reads back from its text if it nests at most 127
deep, and its text is refused otherwise. In the first case no other such value has this text. All
of it holds for a value that is a record, when it is written and read as one. -/
theorem value_pretty_exact {v : Json} (hv : v.Ordered) (hfloat : v.FloatFree) :
    (v.depth ≤ 127 → value v.pretty = .ok v ∧
      ∀ w : Json, w.Ordered → w.FloatFree → v.pretty = w.pretty → v = w) ∧
    (127 < v.depth → value v.pretty = .error .undecodable) ∧
    ∀ r : Record, v = .obj r →
      (v.depth ≤ 127 → decode (text r) = .ok r ∧
        ∀ s : Record, (Json.obj s).Ordered → (Json.obj s).FloatFree → text r = text s → r = s) ∧
      (127 < v.depth → decode (text r) = .error .undecodable) := by
  refine ⟨fun (hdepth : v.depth ≤ maxDepth) ↦ ⟨?_, ?_⟩, fun (hdepth : maxDepth < v.depth) ↦ ?_, ?_⟩
  · rw [value_pretty hv hfloat, if_pos hdepth]
  · intro w hw hwfloat htext
    exact eq_of_pretty_eq hv hfloat hdepth hw hwfloat htext
  · rw [value_pretty hv hfloat, if_neg hdepth.not_ge]
  · rintro r rfl
    refine ⟨fun (hdepth : (Json.obj r).depth ≤ maxDepth) ↦ ⟨?_, ?_⟩,
      fun (hdepth : maxDepth < (Json.obj r).depth) ↦ ?_⟩
    · rw [decode_text_eq hv hfloat, if_pos hdepth]
    · intro s hs hsfloat htext
      rw [text_of_ordered hv.1, text_of_ordered hs.1] at htext
      exact Json.obj.inj (eq_of_pretty_eq hv hfloat hdepth hs hsfloat htext)
    · rw [decode_text_eq hv hfloat, if_neg hdepth.not_ge]

/-- A name with a quote and a string with a control character come back from inside 126 arrays and
an object, and not with one array more. -/
theorem value_pretty_exact_boxed :
    let g : Nat → Record := fun n ↦ [("é\"", boxed n (.str "\x01"))]
    value (Json.pretty (.obj (g 126))) = .ok (.obj (g 126)) ∧
      decode (text (g 126)) = .ok (g 126) ∧
      value (Json.pretty (.obj (g 127))) = .error .undecodable ∧
      decode (text (g 127)) = .error .undecodable := by
  intro g
  have hstr : Printable 0 (.str "\x01") := printable_str (Nat.zero_le _) _
  have hordered : ∀ n, (Json.obj (g n)).Ordered := fun n ↦
    ⟨List.pairwise_singleton _ _, ordered_boxed hstr.ordered n, trivial⟩
  have hfloat : ∀ n, (Json.obj (g n)).FloatFree := fun n ↦
    ⟨floatFree_boxed hstr.floatFree n, trivial⟩
  have hdepth : ∀ n, (Json.obj (g n)).depth = n + 1 := by
    intro n
    have hscalar : (Json.str "\x01").depth = 0 := rfl
    rw [depth, depthMembers, depthMembers, Nat.max_zero, depth_boxed, hscalar, Nat.zero_add]
  obtain ⟨hin, -, hrecord⟩ := value_pretty_exact (hordered 126) (hfloat 126)
  obtain ⟨-, hout, hrecord'⟩ := value_pretty_exact (hordered 127) (hfloat 127)
  have hle : (Json.obj (g 126)).depth ≤ 127 := (hdepth 126).le
  have hlt : 127 < (Json.obj (g 127)).depth := by rw [hdepth]; decide
  exact ⟨(hin hle).1, ((hrecord _ rfl).1 hle).1, hout hlt, (hrecord' _ rfl).2 hlt⟩

end Record

end DeviceSnapshot
