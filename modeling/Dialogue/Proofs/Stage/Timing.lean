import Dialogue.Proofs.Stage.Tweens
import Mathlib.Data.List.Perm.Basic
import Mathlib.Data.List.Range
namespace Dialogue

namespace Timeline

/-- What can be asked of a timeline. -/
inductive Operation where
  | animate (initial final duration : Float32)
  | update (dt : Float32)
  | finish (id : Nat)
  | finishAll

def obey (t : Timeline) : Operation → Timeline × Option Nat
  | .animate initial final duration =>
    ((t.animate initial final duration).2, some (t.animate initial final duration).1)
  | .update dt => (t.update dt, none)
  | .finish id => (t.finish id, none)
  | .finishAll => (t.finishAll, none)

def follow (t : Timeline) (operations : List Operation) : Timeline :=
  operations.foldl (fun t o => (t.obey o).1) t

/-- The numbers that are given while some operations are done, in order. -/
def issued (t : Timeline) : List Operation → List Nat
  | [] => []
  | o :: rest => (t.obey o).2.toList ++ (t.obey o).1.issued rest

variable {t : Timeline} {id other : Nat}

theorem find?_finish_of_ne (h : other ≠ id) : (t.finish id).find? other = t.find? other := by
  rw [find?, find?, finish]
  induction t.tweens with
  | nil => rfl
  | cons e rest ih =>
    obtain ⟨k, tween⟩ := e
    rw [List.filter_cons, List.lookup_cons]
    by_cases hk : k = id
    · have hb : (other == k) = false := beq_eq_false_iff_ne.mpr (hk ▸ h)
      rw [if_neg (by simp [hk]), ih, hb]
    · rw [if_pos (by simpa using hk), List.lookup_cons, ih]

theorem find?_finish_self (t : Timeline) (id : Nat) : (t.finish id).find? id = none := by
  apply lookup_eq_none_iff_not_mem.mpr
  intro h
  obtain ⟨e, he, rfl⟩ := List.mem_map.mp h
  simpa using (List.mem_filter.mp he).2

theorem reading_congr {t' : Timeline} (h : t'.find? id = t.find? id) :
    t'.value? id = t.value? id ∧ t'.isFinished id = t.isFinished id := by
  rw [value?, value?, isFinished, isFinished, h]
  exact ⟨rfl, rfl⟩

/-- So far the numbers `ids` have been given, and of the tweens under them those are kept that
still take time. -/
structure Accounted (ids : List Nat) (t : Timeline) : Prop where
  numbered : t.Numbered
  listed : ∀ k ∈ t.tweens.map Prod.fst, k ∈ ids
  running : ∀ e ∈ t.tweens, e.2.isComplete = false
  counted : ids = List.range' 1 t.last

namespace Accounted

variable {ids : List Nat}

theorem empty : Accounted [] Timeline.empty where
  numbered := .empty
  listed := nofun
  running := nofun
  counted := rfl

theorem le_last (h : Accounted ids t) (hi : id ∈ ids) : id ≤ t.last := by
  rw [h.counted, List.mem_range'_1] at hi
  omega

/-- Since no tween is kept that is complete, a tween is finished just if it is not found. -/
theorem isFinished_iff (h : Accounted ids t) (id : Nat) :
    t.isFinished id = true ↔ t.find? id = none := by
  rw [isFinished]
  cases hf : t.find? id with
  | none => exact iff_of_true rfl rfl
  | some tween =>
    rw [find?, List.lookup_eq_some_iff] at hf
    obtain ⟨before, after, hs, _⟩ := hf
    have he : (id, tween) ∈ t.tweens := by
      rw [hs]
      exact List.mem_append_right before List.mem_cons_self
    simp [h.running _ he]

theorem animate (h : Accounted ids t) (initial final duration : Float32) :
    Accounted (ids ++ [(t.animate initial final duration).1])
      (t.animate initial final duration).2 := by
  have hc : ids ++ [t.last + 1] = List.range' 1 (t.last + 1) := by
    rw [h.counted, List.range'_1_concat, Nat.add_comm 1]
  refine ⟨(Grows.animate t initial final duration).numbered h.numbered, ?_, ?_, hc⟩
  · intro k hk
    rw [Timeline.animate] at hk
    dsimp only at hk
    split at hk
    · exact List.mem_append_left _ (h.listed k hk)
    · rw [List.map_append, List.mem_append] at hk
      exact List.mem_append.mpr (hk.imp_left (h.listed k))
  · intro e he
    rw [Timeline.animate] at he
    dsimp only at he
    split at he
    · exact h.running e he
    · next hn =>
      rcases List.mem_append.mp he with he | he
      · exact h.running e he
      · rw [List.mem_singleton.mp he]
        exact Bool.eq_false_iff.mpr hn

theorem drop (h : Accounted ids t) {t' : Timeline} (hn : t'.Numbered) (hl : t'.last = t.last)
    (hs : ∀ k ∈ t'.tweens.map Prod.fst, k ∈ t.tweens.map Prod.fst)
    (hr : ∀ e ∈ t'.tweens, e.2.isComplete = false) : Accounted ids t' :=
  ⟨hn, fun k hk => h.listed k (hs k hk), hr, hl ▸ h.counted⟩

theorem obey (h : Accounted ids t) (o : Operation) :
    Accounted (ids ++ (t.obey o).2.toList) (t.obey o).1 := by
  cases o with
  | animate initial final duration => exact h.animate initial final duration
  | update dt =>
    rw [Timeline.obey, Option.toList_none, List.append_nil]
    apply h.drop (h.numbered.update dt) rfl fun _ hk => (t.keys_update dt).subset hk
    intro e he
    simpa using (List.mem_filter.mp he).2
  | finish id =>
    rw [Timeline.obey, Option.toList_none, List.append_nil]
    apply h.drop (h.numbered.finish id) rfl fun _ hk => (t.keys_finish id).subset hk
    intro e he
    exact h.running e (List.mem_filter.mp he).1
  | finishAll =>
    rw [Timeline.obey, Option.toList_none, List.append_nil]
    exact h.drop (.finishAll t) rfl nofun nofun

theorem follow (h : Accounted ids t) (operations : List Operation) :
    Accounted (ids ++ t.issued operations) (t.follow operations) := by
  induction operations generalizing ids t with
  | nil =>
    rw [issued, List.append_nil]
    exact h
  | cons o rest ih =>
    rw [issued, ← List.append_assoc]
    exact ih (h.obey o)

theorem isFinished_obey (h : Accounted ids t) (hi : id ∈ ids) (hf : t.isFinished id = true)
    (o : Operation) : (t.obey o).1.isFinished id = true := by
  rw [(h.obey o).isFinished_iff]
  rw [h.isFinished_iff] at hf
  cases o with
  | animate initial final duration =>
    exact ((Grows.animate t initial final duration).find id (h.le_last hi)).trans hf
  | update dt => rw [Timeline.obey, h.numbered.find?_update, hf]; rfl
  | finish done =>
    by_cases hd : id = done
    · rw [hd]
      exact find?_finish_self t done
    · exact (find?_finish_of_ne hd).trans hf
  | finishAll => rfl

theorem isFinished_follow (h : Accounted ids t) (hi : id ∈ ids) (hf : t.isFinished id = true)
    (operations : List Operation) : (t.follow operations).isFinished id = true := by
  induction operations generalizing ids t with
  | nil => exact hf
  | cons o rest ih =>
    exact ih (h.obey o) (List.mem_append_left _ hi) (h.isFinished_obey hi hf o)

theorem mem_keys_iff (h : Accounted ids t) :
    id ∈ t.tweens.map Prod.fst ↔ id ∈ ids ∧ t.isFinished id = false := by
  have hf : t.isFinished id = false ↔ id ∈ t.tweens.map Prod.fst := by
    rw [Bool.eq_false_iff, ne_eq, h.isFinished_iff, find?, lookup_eq_none_iff_not_mem, not_not]
  rw [hf]
  exact ⟨fun hk => ⟨h.listed id hk, hk⟩, And.right⟩

theorem active_eq (h : Accounted ids t) :
    t.active = (ids.filter fun id => !t.isFinished id).length := by
  have hi : ids.Nodup := by
    rw [h.counted]
    exact List.nodup_range'
  have hp : (t.tweens.map Prod.fst).Perm (ids.filter fun id => !t.isFinished id) := by
    rw [List.perm_ext_iff_of_nodup h.numbered.nodup (hi.filter _)]
    intro id
    rw [h.mem_keys_iff, List.mem_filter, Bool.not_eq_true']
  rw [← hp.length_eq, List.length_map, active]

end Accounted

theorem isSome_value?_iff {ids : List Nat} (h : Accounted ids t) (id : Nat) :
    (t.value? id).isSome = true ↔ t.isFinished id = false := by
  rw [value?, Option.isSome_map, Bool.eq_false_iff, ne_eq, h.isFinished_iff, ← ne_eq,
    Option.isSome_iff_ne_none]

theorem hasActive_iff (t : Timeline) : t.hasActive = true ↔ 0 < t.active := by
  simp [hasActive, active, List.length_pos_iff]

theorem length_issued_le (t : Timeline) (operations : List Operation) :
    (t.issued operations).length ≤ operations.length := by
  induction operations generalizing t with
  | nil => exact Nat.le_refl 0
  | cons o rest ih =>
    have ho : (t.obey o).2.toList.length ≤ 1 := by
      cases (t.obey o).2 <;> simp
    have hr := ih (t.obey o).1
    rw [issued, List.length_append, List.length_cons]
    omega

/-- Tweens are numbered from one; one that is finished stays so, and has a value just as long as it
is not. -/
theorem tweens_finish_once (operations : List Operation) :
    let t := empty.follow operations
    let ids := empty.issued operations
    (ids = List.range' 1 ids.length ∧ ids.length ≤ operations.length ∧
        ∀ initial final duration, (t.animate initial final duration).1 = ids.length + 1) ∧
      (∀ id ∈ ids, t.isFinished id = true → ∀ more, (t.follow more).isFinished id = true) ∧
      (∀ id, (t.value? id).isSome = true ↔ t.isFinished id = false) ∧
      (t.active = (ids.filter fun id => !t.isFinished id).length ∧
        (t.hasActive = true ↔ 0 < t.active)) ∧
      (∀ initial final duration other, other ≠ (t.animate initial final duration).1 →
        (t.animate initial final duration).2.value? other = t.value? other ∧
          (t.animate initial final duration).2.isFinished other = t.isFinished other) ∧
      ∀ id other, other ≠ id → (t.finish id).value? other = t.value? other ∧
        (t.finish id).isFinished other = t.isFinished other := by
  intro t ids
  have h : Accounted ids t := Accounted.empty.follow operations
  have hl : ids.length = t.last := by rw [h.counted, List.length_range']
  refine ⟨⟨?_, length_issued_le _ operations, ?_⟩, ?_, isSome_value?_iff h,
    ⟨h.active_eq, t.hasActive_iff⟩, ?_, ?_⟩
  · rw [hl]
    exact h.counted
  · intro initial final duration
    rw [hl]
    rfl
  · intro id hi hf more
    exact h.isFinished_follow hi hf more
  · intro initial final duration other ho
    exact reading_congr (t.find?_animate_of_ne ho)
  · intro id other ho
    exact reading_congr (find?_finish_of_ne ho)

end Timeline

end Dialogue
