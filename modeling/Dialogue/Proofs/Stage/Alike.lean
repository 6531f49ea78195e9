import Dialogue.Proofs.Stage.Performance
import Dialogue.Proofs.Stage.Tweens
namespace Dialogue

structure Timeline.Same (t t' : Timeline) (k k' : Nat) : Prop where
  given : k ≤ t.last
  given' : k' ≤ t'.last
  find : t.find? k = t'.find? k'

namespace Timeline.Same

variable {t t' u u' : Timeline} {k k' : Nat}

theorem symm (h : Same t t' k k') : Same t' t k' k :=
  ⟨h.given', h.given, h.find.symm⟩

theorem grow (h : Same t t' k k') (ht : t.Grows u) (ht' : t'.Grows u') : Same u u' k k' where
  given := Nat.le_trans h.given ht.last
  given' := Nat.le_trans h.given' ht'.last
  find := by rw [ht.find k h.given, ht'.find k' h.given', h.find]

theorem animate (h : t.Numbered) (h' : t'.Numbered) (initial final duration : Float32) :
    Same (t.animate initial final duration).2 (t'.animate initial final duration).2
      (t.last + 1) (t'.last + 1) where
  given := Nat.le_refl _
  given' := Nat.le_refl _
  find := (h.find?_animate _ _ _).trans (h'.find?_animate _ _ _).symm

theorem update (h : Same t t' k k') (ht : t.Numbered) (ht' : t'.Numbered) (dt : Float32) :
    Same (t.update dt) (t'.update dt) k k' where
  given := h.given
  given' := h.given'
  find := by rw [ht.find?_update, ht'.find?_update, h.find]

end Timeline.Same

/-- Two boards show the same of one actor. -/
structure Board.Agree (id : String) (b b' : Board) : Prop where
  settings : b.settings = b'.settings
  figures : b.figuresOf id = b'.figuresOf id
  numbered : b.timeline.Numbered
  numbered' : b'.timeline.Numbered

namespace Board.Agree

variable {id : String} {b b' : Board}

theorem symm (h : Agree id b b') : Agree id b' b :=
  ⟨h.settings.symm, h.figures.symm, h.numbered', h.numbered⟩

theorem get?_eq (h : Agree id b b') : b.get? id = b'.get? id := by
  have hf := congrArg List.head? h.figures
  rw [figuresOf, figuresOf, List.head?_filter, List.head?_filter] at hf
  exact hf

theorem insert (h : Agree id b b') (hn : b.figuresOf id = []) {f : Figure} (hf : f.id = id)
    (entrance : Entrance) : Agree id (b.insert f entrance) (b'.insert f entrance) where
  settings := h.settings
  figures := by
    subst hf
    have hn' : b'.figuresOf f.id = [] := h.figures.symm.trans hn
    rw [figuresOf_insert hn, figuresOf_insert hn']
  numbered := h.numbered
  numbered' := h.numbered'

theorem modify (h : Agree id b b') (change : Figure → Figure) (hc : ∀ f, (change f).id = f.id) :
    Agree id (b.modify id change) (b'.modify id change) where
  settings := h.settings
  figures := by rw [figuresOf_modify change hc, figuresOf_modify change hc, h.figures]
  numbered := h.numbered
  numbered' := h.numbered'

theorem remove (h : Agree id b b') : Agree id (b.remove id) (b'.remove id) where
  settings := h.settings
  figures := (figuresOf_remove b id).trans (figuresOf_remove b' id).symm
  numbered := h.numbered
  numbered' := h.numbered'

theorem tween (h : Agree id b b') (duration : Float32) :
    Agree id (b.tween duration).2 (b'.tween duration).2 where
  settings := h.settings
  figures := h.figures
  numbered := (Timeline.Grows.animate _ _ _ _).numbered h.numbered
  numbered' := (Timeline.Grows.animate _ _ _ _).numbered h.numbered'

theorem same_tween (h : Agree id b b') (duration : Float32) :
    Timeline.Same (b.tween duration).2.timeline (b'.tween duration).2.timeline
      (b.tween duration).1 (b'.tween duration).1 :=
  .animate h.numbered h.numbered' 0 1 duration

theorem finishTween (h : Agree id b b') (k k' : Nat) :
    Agree id (b.finishTween k) (b'.finishTween k') where
  settings := h.settings
  figures := h.figures
  numbered := h.numbered.finish k
  numbered' := h.numbered'.finish k'

theorem update (h : Agree id b b') (dt : Float32) : Agree id (b.update dt) (b'.update dt) where
  settings := h.settings
  figures := h.figures
  numbered := h.numbered.update dt
  numbered' := h.numbered'.update dt

end Board.Agree

namespace Act

/-- The same act goes by tweens that are related. -/
inductive Alike (R : Nat → Nat → Prop) : Act → Act → Prop
  | spawn (actor image : String) (entrance : Entrance) {k k' : Nat} (h : R k k') :
      Alike R (.spawn actor image entrance (some k)) (.spawn actor image entrance (some k'))
  | despawn (actor : String) (exit : Entrance) (width : Float32) {k k' j j' : Nat} (h : R k k')
      (ha : R j j') :
      Alike R (.despawn actor exit (some (k, j)) width) (.despawn actor exit (some (k', j')) width)
  | gesture (actor : String) (g : Gesture) (secondHalf : Bool) {k k' : Nat} (h : R k k') :
      Alike R (.gesture actor g (some k) secondHalf) (.gesture actor g (some k') secondHalf)
  | expression (actor image : String) {k k' : Nat} (h : R k k') :
      Alike R (.expression actor image (some k)) (.expression actor image (some k'))

theorem shown_congr {act : Act} (hn : ¬ act.Exits) {b b' : Board} (hs : b.settings = b'.settings)
    (t : Float32) : act.shown b t = act.shown b' t := by
  funext f
  cases act with
  | spawn actor image entrance tween => simp only [shown, hs, Board.direction_eq hs]
  | despawn actor exit tweens width => exact absurd trivial hn
  | gesture actor g tween secondHalf => rfl
  | expression actor image tween => rfl

namespace Alike

variable {R S : Nat → Nat → Prop} {act act' : Act} {b b' : Board} {id : String}

theorem mono (h : Alike R act act') (hs : ∀ k k', R k k' → S k k') : Alike S act act' := by
  cases h with
  | spawn actor image entrance h => exact .spawn actor image entrance (hs _ _ h)
  | despawn actor exit width h ha => exact .despawn actor exit width (hs _ _ h) (hs _ _ ha)
  | gesture actor g secondHalf h => exact .gesture actor g secondHalf (hs _ _ h)
  | expression actor image h => exact .expression actor image (hs _ _ h)

theorem symm (h : Alike R act act') : Alike (fun k' k => R k k') act' act := by
  cases h with
  | spawn actor image entrance h => exact .spawn actor image entrance h
  | despawn actor exit width h ha => exact .despawn actor exit width h ha
  | gesture actor g secondHalf h => exact .gesture actor g secondHalf h
  | expression actor image h => exact .expression actor image h

theorem actor_eq (h : Alike R act act') : act'.actor = act.actor := by
  cases h <;> rfl

theorem exits (h : Alike R act act') (he : act.Exits) : act'.Exits := by
  cases h with
  | despawn actor exit width h ha => trivial
  | _ => exact he.elim

theorem tween? (h : Alike R act act') :
    ∃ k k', act.tween? = some k ∧ act'.tween? = some k' ∧ R k k' := by
  cases h with
  | spawn actor image entrance h => exact ⟨_, _, rfl, rfl, h⟩
  | despawn actor exit width h ha => exact ⟨_, _, rfl, rfl, h⟩
  | gesture actor g secondHalf h => exact ⟨_, _, rfl, rfl, h⟩
  | expression actor image h => exact ⟨_, _, rfl, rfl, h⟩

theorem shown_eq (h : Alike (b.timeline.Same b'.timeline) act act')
    (hs : b.settings = b'.settings) (t : Float32) : act.shown b t = act'.shown b' t := by
  funext f
  cases h with
  | spawn actor image entrance h => simp only [shown, hs, Board.direction_eq hs]
  | despawn actor exit width h ha =>
    have hp : b.progress _ = b'.progress _ := Timeline.progress_congr ha.find
    simp only [shown, Board.direction_eq hs, hp]
  | gesture actor g secondHalf h => rfl
  | expression actor image h => rfl

theorem apply (h : Alike (b.timeline.Same b'.timeline) act act')
    (ha : Board.Agree act.actor b b') (t : Float32) :
    Board.Agree act.actor (act.apply b t) (act'.apply b' t) := by
  rw [apply_eq, apply_eq, h.actor_eq, ← h.shown_eq ha.settings]
  exact ha.modify _ (act.id_shown b t)

theorem finish (h : Alike R act act') (ha : Board.Agree act.actor b b') :
    Board.Agree act.actor (act.finish b).2 (act'.finish b').2 ∧
      (act.Exits → (act.finish b).2.figuresOf act.actor = []) := by
  have shows (act : Act) (hn : ¬ act.Exits) {c c' : Board} (hc : Board.Agree act.actor c c') :
      Board.Agree act.actor (act.apply c 1) (act.apply c' 1) := by
    rw [apply_eq, apply_eq, ← shown_congr hn hc.settings]
    exact hc.modify _ (act.id_shown c 1)
  cases h with
  | @spawn actor image entrance k k' h =>
    exact ⟨shows (.spawn actor image entrance none) id (ha.finishTween k k'), False.elim⟩
  | @despawn actor exit width k k' j j' h hj =>
    refine ⟨⟨ha.settings, ?_, (ha.numbered.finish k).finish j,
      (ha.numbered'.finish k').finish j'⟩, fun _ => Board.figuresOf_remove _ _⟩
    exact (Board.figuresOf_remove _ _).trans (Board.figuresOf_remove _ _).symm
  | @gesture actor g secondHalf k k' h =>
    exact ⟨shows (.gesture actor g none true) id (ha.finishTween k k'), False.elim⟩
  | @expression actor image k k' h =>
    exact ⟨shows (.expression actor image none) id (ha.finishTween k k'), False.elim⟩

end Alike

/-- What became of the same act on two boards: it goes on alike, or it is over on both. -/
inductive Outcome (actor : String) (exits : Prop) :
    Status × Act × Board → Status × Act × Board → Prop
  | pending {act act' : Act} {b b' : Board} (ha : Board.Agree actor b b')
      (h : Alike (b.timeline.Same b'.timeline) act act') (hid : act.actor = actor)
      (hl : exits → act.Exits) : Outcome actor exits (.pending, act, b) (.pending, act', b')
  | done {act act' : Act} {b b' : Board} (ha : Board.Agree actor b b')
      (hl : exits → b.figuresOf actor = []) : Outcome actor exits (.done, act, b) (.done, act', b')

namespace Alike

variable {act act' : Act} {b b' : Board}

theorem conclude (h : Alike (b.timeline.Same b'.timeline) act act') (ha : Board.Agree act.actor b b') :
    Outcome act.actor act.Exits (act.conclude b) (act'.conclude b') := by
  cases h with
  | spawn actor image entrance h => exact .done ha False.elim
  | despawn actor exit width h hj =>
    exact .done ha.remove fun _ => Board.figuresOf_remove b actor
  | gesture actor g secondHalf h =>
    cases g with
    | nod =>
      cases secondHalf with
      | false =>
        exact .pending (ha.tween _) (.gesture actor .nod true (ha.same_tween _)) rfl False.elim
      | true => exact .done ha False.elim
    | _ => exact .done ha False.elim
  | expression actor image h => exact .done ha False.elim

theorem poll (h : Alike (b.timeline.Same b'.timeline) act act') (ha : Board.Agree act.actor b b') :
    Outcome act.actor act.Exits (act.poll b) (act'.poll b') := by
  obtain ⟨k, k', hk, hk', hs⟩ := h.tween?
  have hp : b.progress k = b'.progress k' := Timeline.progress_congr hs.find
  have happly := h.apply ha (b.progress k)
  have halike : Alike ((act.apply b (b.progress k)).timeline.Same
      (act'.apply b' (b.progress k)).timeline) act act' := by
    rw [apply_eq, apply_eq]
    exact h
  rw [Act.poll, Act.poll, hk, hk']
  simp only [← hp]
  by_cases ht : b.progress k < 1
  · simp only [if_pos ht]
    exact .pending happly halike rfl id
  · simp only [if_neg ht]
    exact halike.conclude happly

end Alike

namespace Takes

variable {act : Act} {before after : Option String} {b b' : Board}

theorem prepare_alike (h : act.Takes before after) (ha : Board.Agree act.actor b b')
    (hn : before = none → b.figuresOf act.actor = []) :
    Board.Agree act.actor (act.prepare b).2 (act.prepare b').2 ∧
      Alike ((act.prepare b).2.timeline.Same (act.prepare b').2.timeline) (act.prepare b).1
        (act.prepare b').1 ∧
      (after = none → (act.prepare b).1.Exits) := by
  have hset : b'.settings = b.settings := ha.settings.symm
  cases h with
  | spawn actor image entrance =>
    have hd : b.direction entrance = b'.direction entrance :=
      Board.direction_eq ha.settings entrance
    have hi := ha.insert (hn rfl) (f := .entering actor image (b.direction entrance)) rfl entrance
    simp only [Act.prepare, toSpawn, ← hd, hset]
    exact ⟨hi.tween _, .spawn actor image entrance (hi.same_tween _), nofun⟩
  | despawn actor image exit =>
    have hg : b.get? actor = b'.get? actor := ha.get?_eq
    have ht := ha.tween b.settings.actorDuration
    have hs := ha.same_tween b.settings.actorDuration
    simp only [Act.prepare, toDespawn, ← hg, hset, ← ht.settings]
    refine ⟨ht.tween _, .despawn actor exit _ (hs.grow ?_ ?_) (ht.same_tween _), fun _ => trivial⟩
    · exact .animate _ _ _ _
    · exact .animate _ _ _ _
  | gesture actor image g =>
    have hm := ha.modify (fun f => { f with motion := .zero, scale := 1 }) fun _ => rfl
    exact ⟨hm.tween _, .gesture actor g false (hm.same_tween _), nofun⟩
  | expression actor before image =>
    exact ⟨ha.tween _, .expression actor image (ha.same_tween _), nofun⟩

theorem start_alike (h : act.Takes before after) (ha : Board.Agree act.actor b b')
    (hn : before = none → b.figuresOf act.actor = []) :
    Board.Agree act.actor (act.start b).2 (act.start b').2 ∧
      Alike ((act.start b).2.timeline.Same (act.start b').2.timeline) (act.start b).1
        (act.start b').1 ∧
      (after = none → (act.start b).1.Exits) := by
  obtain ⟨hp, hal, he⟩ := h.prepare_alike ha hn
  have hs := hal.apply (by rwa [actor_prepare]) 0
  rw [actor_prepare] at hs
  refine ⟨hs, ?_, he⟩
  simp only [Act.start, apply_eq]
  exact hal

end Takes

end Act

end Dialogue
