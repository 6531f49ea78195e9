import Dialogue.Proofs.Stage.Single
namespace Dialogue

section insertIdx

variable {α : Type} {p : α → Bool} {x : α}

theorem filter_insertIdx_of_not (h : p x = false) (l : List α) (i : Nat) :
    (l.insertIdx i x).filter p = l.filter p := by
  induction l generalizing i with
  | nil =>
    cases i with
    | zero => rw [List.insertIdx_zero, List.filter_cons_of_neg (Bool.eq_false_iff.mp h)]
    | succ i => rw [List.insertIdx_succ_nil]
  | cons a l ih =>
    cases i with
    | zero => rw [List.insertIdx_zero, List.filter_cons_of_neg (Bool.eq_false_iff.mp h)]
    | succ i => rw [List.insertIdx_succ_cons, List.filter_cons, List.filter_cons, ih]

theorem filter_insertIdx_of_none (h : p x = true) {l : List α} (hl : l.filter p = []) {i : Nat}
    (hi : i ≤ l.length) : (l.insertIdx i x).filter p = [x] := by
  induction l generalizing i with
  | nil =>
    obtain rfl : i = 0 := Nat.le_zero.mp hi
    rw [List.insertIdx_zero, List.filter_cons_of_pos h, hl]
  | cons a l ih =>
    cases i with
    | zero => rw [List.insertIdx_zero, List.filter_cons_of_pos h, hl]
    | succ i =>
      have ha : ¬ p a = true := List.filter_eq_nil_iff.mp hl a List.mem_cons_self
      rw [List.filter_cons_of_neg ha] at hl
      rw [List.insertIdx_succ_cons, List.filter_cons_of_neg ha]
      exact ih hl (Nat.le_of_succ_le_succ hi)

end insertIdx

def Timeline.ZeroToOne (t : Timeline) : Prop :=
  ∀ e ∈ t.tweens, e.2.initial = 0 ∧ e.2.final = 1

namespace Timeline.ZeroToOne

variable {t : Timeline}

theorem empty : Timeline.empty.ZeroToOne :=
  nofun

theorem animate (h : t.ZeroToOne) (duration : Float32) : (t.animate 0 1 duration).2.ZeroToOne := by
  intro e he
  simp only [Timeline.animate] at he
  split at he
  · exact h e he
  · rcases List.mem_append.mp he with he | he
    · exact h e he
    · rw [List.mem_singleton.mp he]
      exact ⟨rfl, rfl⟩

theorem finish (h : t.ZeroToOne) (id : Nat) : (t.finish id).ZeroToOne := by
  intro e he
  exact h e (List.mem_filter.mp he).1

theorem finishAll (t : Timeline) : t.finishAll.ZeroToOne :=
  nofun

theorem update (h : t.ZeroToOne) (dt : Float32) : (t.update dt).ZeroToOne := by
  intro e he
  obtain ⟨e, hm, rfl⟩ := List.mem_map.mp (List.mem_filter.mp he).1
  exact h e hm

end Timeline.ZeroToOne

theorem Tween.progress_lt_one {t : Tween} (h : t.isComplete = false) : t.progress < 1 := by
  have hn : ¬ 1 ≤ t.progress := of_decide_eq_false h
  have hone : (1 : Float32) ≤ 1 := by decide +kernel
  rw [Tween.progress] at hn ⊢
  split at hn
  · exact absurd hone hn
  · rename_i hd
    rw [if_neg hd]
    by_cases hp : t.elapsed / t.duration < 1
    · simp only [if_pos hp]
      exact hp
    · simp only [if_neg hp] at hn
      exact absurd hone hn

theorem Timeline.ZeroToOne.progress {t : Timeline} (h : t.ZeroToOne) (id : Nat) :
    t.progress id < 1 ∨ t.progress id = 1 := by
  rw [Timeline.progress]
  by_cases hf : t.isFinished id = true
  · exact .inr (if_pos hf)
  · rw [if_neg hf, Timeline.value?]
    rw [Timeline.isFinished] at hf
    cases ht : t.find? id with
    | none => exact .inr rfl
    | some tween =>
      rw [ht] at hf
      have hp := Tween.progress_lt_one (Bool.eq_false_iff.mpr hf)
      obtain ⟨before, after, hm, -⟩ := List.lookup_eq_some_iff.mp ht
      have hmem : (id, tween) ∈ t.tweens := by
        rw [hm]
        exact List.mem_append_right before List.mem_cons_self
      obtain ⟨hi, he⟩ := h _ hmem
      have hv : tween.value = lerp 0 1 tween.progress := by
        rw [Tween.value, hi, he, lerp]
      rw [Option.map_some, Option.getD_some, hv]
      exact .inl (lerp_zero_one_lt hp)

namespace Board

def figuresOf (b : Board) (id : String) : List Figure :=
  b.figures.filter (·.id = id)

section modify

variable (change : Figure → Figure) {id : String}

theorem filter_modifyFirst (hc : ∀ f, (change f).id = f.id) (l : List Figure) :
    (modifyFirst id change l).filter (·.id = id) = (l.filter (·.id = id)).modifyHead change := by
  induction l with
  | nil => rfl
  | cons f r ih =>
    rw [modifyFirst]
    by_cases hf : f.id = id
    · have hf' : (change f).id = id := (hc f).trans hf
      rw [if_pos hf, List.filter_cons_of_pos (by rwa [decide_eq_true_eq]),
        List.filter_cons_of_pos (by rwa [decide_eq_true_eq]), List.modifyHead_cons]
    · rw [if_neg hf, List.filter_cons_of_neg (by rwa [decide_eq_true_eq]),
        List.filter_cons_of_neg (by rwa [decide_eq_true_eq]), ih]

theorem filter_modifyFirst_of_ne (hc : ∀ f, (change f).id = f.id) {other : String}
    (h : other ≠ id) (l : List Figure) :
    (modifyFirst id change l).filter (·.id = other) = l.filter (·.id = other) := by
  induction l with
  | nil => rfl
  | cons f r ih =>
    rw [modifyFirst]
    by_cases hf : f.id = id
    · have hne : ¬ f.id = other := by
        intro he
        exact h (he.symm.trans hf)
      rw [if_pos hf, List.filter_cons_of_neg (by rwa [decide_eq_true_eq, hc]),
        List.filter_cons_of_neg (by rwa [decide_eq_true_eq])]
    · rw [if_neg hf, List.filter_cons, List.filter_cons, ih]

theorem figuresOf_modify (hc : ∀ f, (change f).id = f.id) (b : Board) :
    (b.modify id change).figuresOf id = (b.figuresOf id).modifyHead change :=
  filter_modifyFirst change hc b.figures

theorem figuresOf_modify_of_ne (hc : ∀ f, (change f).id = f.id) {other : String} (h : other ≠ id)
    (b : Board) : (b.modify id change).figuresOf other = b.figuresOf other :=
  filter_modifyFirst_of_ne change hc h b.figures

end modify

theorem figuresOf_insert {b : Board} {f : Figure} (h : b.figuresOf f.id = [])
    (entrance : Entrance) : (b.insert f entrance).figuresOf f.id = [f] :=
  filter_insertIdx_of_none (p := fun g : Figure => decide (g.id = f.id)) (decide_eq_true rfl) h
    (slot_le _ entrance)

theorem figuresOf_insert_of_ne {f : Figure} {id : String} (h : id ≠ f.id) (b : Board)
    (entrance : Entrance) : (b.insert f entrance).figuresOf id = b.figuresOf id :=
  filter_insertIdx_of_not (p := fun g : Figure => decide (g.id = id))
    (decide_eq_false (Ne.symm h)) _ _

theorem figuresOf_remove (b : Board) (id : String) : (b.remove id).figuresOf id = [] := by
  rw [figuresOf, remove, List.filter_filter]
  apply List.filter_eq_nil_iff.mpr
  intro f _
  simp only [Bool.and_eq_true, decide_eq_true_eq, bne_iff_ne, ne_eq, and_not_self,
    not_false_eq_true]

theorem figuresOf_remove_of_ne {id other : String} (h : other ≠ id) (b : Board) :
    (b.remove id).figuresOf other = b.figuresOf other := by
  rw [figuresOf, remove, List.filter_filter]
  apply List.filter_congr
  intro f _
  by_cases hf : f.id = other
  · simp only [hf, decide_true, Bool.true_and, bne_iff_ne, ne_eq, h, not_false_eq_true]
  · simp only [hf, decide_false, Bool.false_and]

end Board

end Dialogue
