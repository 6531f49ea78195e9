import Dialogue.Stage.Timeline
import Mathlib.Data.List.Basic
namespace Dialogue

section lookup

variable {α β : Type} [BEq α] [LawfulBEq α] {k : α} {l : List (α × β)}

theorem lookup_eq_none_iff_not_mem : l.lookup k = none ↔ k ∉ l.map Prod.fst := by
  rw [List.lookup_eq_none_iff]
  constructor
  · intro h hk
    obtain ⟨e, he, rfl⟩ := List.mem_map.mp hk
    exact bne_iff_ne.mp (h e he) rfl
  · intro h e he
    rw [bne_iff_ne]
    rintro rfl
    exact h (List.mem_map_of_mem he)

theorem lookup_filter_map {γ : Type} (hl : (l.map Prod.fst).Nodup) (f : β → γ) (p : γ → Bool) :
    ((l.map fun e => (e.1, f e.2)).filter fun e => p e.2).lookup k =
      ((l.lookup k).map f).filter p := by
  induction l with
  | nil => rfl
  | cons e l ih =>
    obtain ⟨j, v⟩ := e
    rw [List.map_cons, List.nodup_cons] at hl
    rw [List.map_cons]
    by_cases hj : k = j
    · subst hj
      rw [List.lookup_cons_self, Option.map_some]
      cases hp : p (f v) with
      | true =>
        rw [List.filter_cons_of_pos (p := fun e : α × γ => p e.2) hp, List.lookup_cons_self,
          Option.filter_some_pos hp]
      | false =>
        rw [List.filter_cons_of_neg (p := fun e : α × γ => p e.2) (Bool.eq_false_iff.mp hp),
          ih hl.2, lookup_eq_none_iff_not_mem.mpr hl.1, Option.filter_some_neg hp]
        rfl
    · have hb : (k == j) = false := beq_eq_false_iff_ne.mpr hj
      rw [List.lookup_cons, hb, ← ih hl.2, List.filter_cons]
      split <;> simp only [List.lookup_cons, hb]

end lookup

namespace Timeline

structure Numbered (t : Timeline) : Prop where
  nodup : (t.tweens.map Prod.fst).Nodup
  given : ∀ k ∈ t.tweens.map Prod.fst, k ≤ t.last

theorem find?_animate_of_ne (t : Timeline) {initial final duration : Float32} {k : Nat}
    (h : k ≠ (t.animate initial final duration).1) :
    (t.animate initial final duration).2.find? k = t.find? k := by
  have hb : (k == t.last + 1) = false := beq_eq_false_iff_ne.mpr h
  rw [animate, find?, find?]
  dsimp only
  split
  · rfl
  · rw [List.lookup_append, List.lookup_cons, hb, List.lookup_nil, Option.or_none]

theorem keys_finish (t : Timeline) (id : Nat) :
    ((t.finish id).tweens.map Prod.fst).Sublist (t.tweens.map Prod.fst) :=
  List.filter_sublist.map _

theorem keys_update (t : Timeline) (dt : Float32) :
    ((t.update dt).tweens.map Prod.fst).Sublist (t.tweens.map Prod.fst) := by
  have hm : t.tweens.map Prod.fst =
      (t.tweens.map fun e => (e.1, e.2.advance dt)).map Prod.fst := by
    rw [List.map_map]
    rfl
  rw [hm]
  exact List.filter_sublist.map _

structure Grows (t t' : Timeline) : Prop where
  numbered : t.Numbered → t'.Numbered
  last : t.last ≤ t'.last
  find : ∀ k ≤ t.last, t'.find? k = t.find? k

namespace Grows

variable {t t' t'' : Timeline}

theorem refl (t : Timeline) : Grows t t where
  numbered h := h
  last := Nat.le_refl _
  find _ _ := rfl

theorem trans (h : Grows t t') (h' : Grows t' t'') : Grows t t'' where
  numbered hn := h'.numbered (h.numbered hn)
  last := Nat.le_trans h.last h'.last
  find k hk := (h'.find k (Nat.le_trans hk h.last)).trans (h.find k hk)

theorem animate (t : Timeline) (initial final duration : Float32) :
    Grows t (t.animate initial final duration).2 where
  numbered h := by
    rw [Timeline.animate]
    dsimp only
    split
    · exact ⟨h.nodup, fun k hk => Nat.le_succ_of_le (h.given k hk)⟩
    · have hn : t.last + 1 ∉ t.tweens.map Prod.fst := by
        intro hm
        exact Nat.not_succ_le_self t.last (h.given _ hm)
      constructor
      · rw [List.map_append, List.map_singleton, List.nodup_append]
        refine ⟨h.nodup, List.pairwise_singleton _ _, ?_⟩
        rintro k hk _ hl rfl
        rw [List.mem_singleton.mp hl] at hk
        exact hn hk
      · intro k hk
        rw [List.map_append, List.mem_append] at hk
        rcases hk with hk | hk
        · exact Nat.le_succ_of_le (h.given k hk)
        · exact Nat.le_of_eq (List.mem_singleton.mp hk)
  last := Nat.le_succ _
  find _ hk := t.find?_animate_of_ne (Nat.ne_of_lt (Nat.lt_succ_of_le hk))

end Grows

namespace Numbered

variable {t : Timeline}

theorem empty : Timeline.empty.Numbered where
  nodup := .nil
  given := nofun

theorem finishAll (t : Timeline) : t.finishAll.Numbered where
  nodup := .nil
  given := nofun

theorem finish (h : t.Numbered) (id : Nat) : (t.finish id).Numbered where
  nodup := h.nodup.sublist (t.keys_finish id)
  given k hk := h.given k ((t.keys_finish id).subset hk)

theorem update (h : t.Numbered) (dt : Float32) : (t.update dt).Numbered where
  nodup := h.nodup.sublist (t.keys_update dt)
  given k hk := h.given k ((t.keys_update dt).subset hk)

theorem find?_animate (h : t.Numbered) (initial final duration : Float32) :
    (t.animate initial final duration).2.find? (t.last + 1) =
      (some (Tween.start initial final duration)).filter fun tween => !tween.isComplete := by
  have hn : t.tweens.lookup (t.last + 1) = none := by
    apply lookup_eq_none_iff_not_mem.mpr
    intro hm
    exact Nat.not_succ_le_self t.last (h.given _ hm)
  simp only [animate, find?]
  cases hc : (Tween.start initial final duration).isComplete with
  | true => simp only [if_true, hn, Option.filter, hc, Bool.not_true, Bool.false_eq_true, if_false]
  | false =>
    simp only [Bool.false_eq_true, if_false, List.lookup_append, hn, Option.none_or,
      List.lookup_cons_self, Option.filter, hc, Bool.not_false, if_true]

theorem find?_update (h : t.Numbered) (dt : Float32) (k : Nat) :
    (t.update dt).find? k =
      ((t.find? k).map (·.advance dt)).filter fun tween => !tween.isComplete :=
  lookup_filter_map h.nodup (·.advance dt) fun tween => !tween.isComplete

end Numbered

theorem progress_congr {t t' : Timeline} {k k' : Nat} (h : t.find? k = t'.find? k') :
    t.progress k = t'.progress k' := by
  rw [progress, isFinished, value?, progress, isFinished, value?, h]

end Timeline

end Dialogue
