namespace Dialogue.Text

/-- Writes `new` for every occurrence of `old`, from the left and without overlap. -/
def replace (old new : List Char) : List Char → List Char
  | [] => []
  | c :: r =>
    if old ≠ [] ∧ old <+: c :: r then new ++ replace old new ((c :: r).drop old.length)
    else c :: replace old new r
termination_by s => s.length
decreasing_by
  · next h =>
    have := List.length_pos_iff.mpr h.1
    simp only [List.length_drop, List.length_cons]
    omega
  · simp

@[simp] theorem replace_nil (old new : List Char) : replace old new [] = [] := by
  rw [replace]

theorem replace_cons_of_not_isPrefix {old new r : List Char} {c : Char} (h : ¬ old <+: c :: r) :
    replace old new (c :: r) = c :: replace old new r := by
  rw [replace, if_neg (fun h' => h h'.2)]

theorem replace_eq_self {old : List Char} (new : List Char) {s : List Char} (h : ¬ old <:+: s) :
    replace old new s = s := by
  induction s with
  | nil => exact replace_nil old new
  | cons c r ih =>
    rw [replace_cons_of_not_isPrefix fun hp => h hp.isInfix,
      ih fun hi => h (hi.trans (List.suffix_cons c r).isInfix)]

theorem replace_append_left {old new r : List Char} (h : old ≠ []) :
    replace old new (old ++ r) = new ++ replace old new r := by
  cases old with
  | nil => exact absurd rfl h
  | cons o os =>
    rw [List.cons_append, replace, if_pos ⟨h, by simp⟩]
    simp

end Dialogue.Text
