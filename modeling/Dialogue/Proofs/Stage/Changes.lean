import Dialogue.Proofs.Stage.Figures
namespace Dialogue

/-- The board differs at most in the figures of one actor and in its tweens. -/
structure Board.Changes (id : String) (b b' : Board) : Prop where
  settings : b'.settings = b.settings
  others : ∀ other, other ≠ id → b'.figuresOf other = b.figuresOf other
  timeline : b.timeline.ZeroToOne → b'.timeline.ZeroToOne

namespace Board.Changes

variable {id : String} {b b' b'' : Board}

theorem refl (id : String) (b : Board) : Changes id b b where
  settings := rfl
  others _ _ := rfl
  timeline h := h

theorem trans (h : Changes id b b') (h' : Changes id b' b'') : Changes id b b'' where
  settings := h'.settings.trans h.settings
  others other hne := (h'.others other hne).trans (h.others other hne)
  timeline ht := h'.timeline (h.timeline ht)

theorem modify (change : Figure → Figure) (hc : ∀ f, (change f).id = f.id) (id : String)
    (b : Board) : Changes id b (b.modify id change) where
  settings := rfl
  others _ hne := figuresOf_modify_of_ne change hc hne b
  timeline h := h

theorem insert (b : Board) (f : Figure) (entrance : Entrance) :
    Changes f.id b (b.insert f entrance) where
  settings := rfl
  others _ hne := figuresOf_insert_of_ne hne b entrance
  timeline h := h

theorem remove (b : Board) (id : String) : Changes id b (b.remove id) where
  settings := rfl
  others _ hne := figuresOf_remove_of_ne hne b
  timeline h := h

theorem tween (id : String) (b : Board) (duration : Float32) :
    Changes id b (b.tween duration).2 where
  settings := rfl
  others _ _ := rfl
  timeline h := h.animate duration

theorem finishTween (id : String) (b : Board) (n : Nat) : Changes id b (b.finishTween n) where
  settings := rfl
  others _ _ := rfl
  timeline h := h.finish n

end Board.Changes

namespace Act

/-- How the act changes a figure when it is shown at the given part of its way. -/
def shown (act : Act) (b : Board) (t : Float32) (f : Figure) : Figure :=
  match act with
  | .spawn _ _ entrance _ =>
    { f with width := lerp 0 b.settings.actorWidth t
             offset := ⟨lerp (b.direction entrance).x 0 t, lerp (b.direction entrance).y 0 t⟩
             alpha := t }
  | .despawn _ exit tweens width =>
    { f with width := lerp width 0 t
             offset := ⟨lerp 0 (b.direction exit).x t, lerp 0 (b.direction exit).y t⟩
             alpha := 1 - (match tweens with
               | some (_, alpha) => b.progress alpha
               | none => t) }
  | .gesture _ g _ secondHalf => pose g secondHalf t f
  | .expression _ image _ =>
    if 1 ≤ t then { f with image := image, overlay := none }
    else { f with overlay := some ⟨image, t⟩ }

theorem apply_eq (act : Act) (b : Board) (t : Float32) :
    act.apply b t = b.modify act.actor (act.shown b t) := by
  cases act <;> rfl

theorem id_pose (g : Gesture) (secondHalf : Bool) (t : Float32) (f : Figure) :
    (pose g secondHalf t f).id = f.id := by
  cases g <;> rfl

theorem id_shown (act : Act) (b : Board) (t : Float32) (f : Figure) :
    (act.shown b t f).id = f.id := by
  cases act with
  | spawn actor image entrance tween => rfl
  | despawn actor exit tweens width => rfl
  | gesture actor g tween secondHalf => exact id_pose g secondHalf t f
  | expression actor image tween =>
    simp only [shown]
    split <;> rfl

theorem figuresOf_apply (act : Act) (b : Board) (t : Float32) :
    (act.apply b t).figuresOf act.actor = (b.figuresOf act.actor).modifyHead (act.shown b t) := by
  rw [apply_eq]
  exact Board.figuresOf_modify _ (id_shown act b t) b

theorem changes_apply (act : Act) (b : Board) (t : Float32) :
    Board.Changes act.actor b (act.apply b t) := by
  rw [apply_eq]
  exact .modify _ (id_shown act b t) act.actor b

theorem changes_prepare (act : Act) (b : Board) :
    Board.Changes act.actor b (act.prepare b).2 := by
  cases act with
  | spawn actor image entrance tween =>
    exact (Board.Changes.insert b (.entering actor image _) entrance).trans (.tween _ _ _)
  | despawn actor exit tweens width => exact (Board.Changes.tween _ b _).trans (.tween _ _ _)
  | gesture actor g tween secondHalf =>
    have hm := Board.Changes.modify (fun f => { f with motion := .zero, scale := 1 })
      (fun _ => rfl) actor b
    exact hm.trans (.tween _ _ _)
  | expression actor image tween => exact .tween _ b _

theorem changes_start (act : Act) (b : Board) : Board.Changes act.actor b (act.start b).2 := by
  have h := (act.prepare b).1.changes_apply (act.prepare b).2 0
  rw [actor_prepare] at h
  exact (act.changes_prepare b).trans h

theorem changes_conclude (act : Act) (b : Board) :
    Board.Changes act.actor b (act.conclude b).2.2 := by
  cases act with
  | spawn actor image entrance tween => exact .refl actor b
  | despawn actor exit tweens width => exact .remove b actor
  | gesture actor g tween secondHalf =>
    cases g with
    | nod =>
      cases secondHalf with
      | false => exact .tween actor b _
      | true => exact .refl actor b
    | _ => exact .refl actor b
  | expression actor image tween => exact .refl actor b

theorem changes_poll (act : Act) (b : Board) : Board.Changes act.actor b (act.poll b).2.2 := by
  rw [poll]
  cases act.tween? with
  | none => exact .refl _ b
  | some id =>
    have ha := act.changes_apply b (b.progress id)
    by_cases ht : b.progress id < 1
    · simp only [if_pos ht]
      exact ha
    · simp only [if_neg ht]
      exact ha.trans (act.changes_conclude _)

theorem actor_hasten (act : Act) (b : Board) : (act.hasten b).1.actor = act.actor := by
  cases act with
  | spawn actor image entrance tween => rfl
  | despawn actor exit tweens width => cases tweens <;> rfl
  | gesture actor g tween secondHalf => rfl
  | expression actor image tween => rfl

theorem changes_hasten (act : Act) (b : Board) :
    Board.Changes act.actor b (act.hasten b).2 := by
  cases act with
  | spawn actor image entrance tween =>
    cases tween with
    | none => exact .refl actor b
    | some id => exact .finishTween actor b id
  | despawn actor exit tweens width =>
    cases tweens with
    | none => exact .refl actor b
    | some ids =>
      have hw := Board.Changes.finishTween actor b ids.1
      exact hw.trans (.finishTween actor _ ids.2)
  | gesture actor g tween secondHalf =>
    cases tween with
    | none => exact .refl actor b
    | some id => exact .finishTween actor b id
  | expression actor image tween =>
    cases tween with
    | none => exact .refl actor b
    | some id => exact .finishTween actor b id

theorem changes_finish (act : Act) (b : Board) :
    Board.Changes act.actor b (act.finish b).2 := by
  have ha := (act.hasten b).1.changes_apply (act.hasten b).2 1
  have hn := actor_hasten act b
  rw [hn] at ha
  have h := (act.changes_hasten b).trans ha
  rw [finish]
  rcases hh : act.hasten b with ⟨act', b'⟩
  rw [hh] at h hn
  cases act' with
  | despawn actor exit tweens width =>
    obtain rfl : actor = act.actor := hn
    exact h.trans (.remove _ _)
  | _ => exact h

end Act

end Dialogue
