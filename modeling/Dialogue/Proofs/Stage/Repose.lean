import Dialogue.Proofs.Stage.Changes
import Dialogue.Proofs.Stage.Lanes
namespace Dialogue

/-- A figure with which nothing is going on, as numbers are compared, by which zero has no sign. -/
structure Figure.AtRest (s : StageSettings) (f : Figure) : Prop where
  width : (f.width == s.actorWidth) = true
  offset : (f.offset.x == 0) = true ∧ (f.offset.y == 0) = true
  motion : (f.motion.x == 0) = true ∧ (f.motion.y == 0) = true
  scale : f.scale = 1
  alpha : f.alpha = 1
  overlay : f.overlay = none

/-- Figures of an actor who is not on stage, or is there once, at rest, with the given picture. -/
def Settled (s : StageSettings) (figures : List Figure) : Option String → Prop
  | none => figures = []
  | some image => ∃ f, figures = [f] ∧ f.AtRest s ∧ f.image = image

structure StageSettings.Finite (s : StageSettings) : Prop where
  width : s.actorWidth.isFinite = true
  distance : s.moveDistance.isFinite = true

theorem Settled.modifyHead {s : StageSettings} {figures : List Figure} {change : Figure → Figure}
    {image : Option String} (h : Settled s (figures.map change) image) :
    Settled s (figures.modifyHead change) image := by
  cases image with
  | none =>
    obtain rfl := List.map_eq_nil_iff.mp h
    rfl
  | some image =>
    obtain ⟨f, hf, hr⟩ := h
    obtain ⟨g, rfl, hg⟩ := List.map_eq_singleton_iff.mp hf
    exact ⟨f, by rw [List.modifyHead_cons, hg], hr⟩

theorem filterMap_modifyHead {α β : Type} {f : α → Option β} {g : α → α}
    (h : ∀ a, f (g a) = f a) (l : List α) : (l.modifyHead g).filterMap f = l.filterMap f := by
  cases l with
  | nil => rfl
  | cons a r => rw [List.modifyHead_cons, List.filterMap_cons, List.filterMap_cons, h]

theorem Board.direction_eq {b b' : Board} (h : b.settings = b'.settings) (entrance : Entrance) :
    b.direction entrance = b'.direction entrance := by
  cases entrance <;> simp only [Board.direction, h]

theorem Board.isFinite_direction {b : Board} (h : b.settings.Finite) (entrance : Entrance) :
    (b.direction entrance).x.isFinite = true ∧ (b.direction entrance).y.isFinite = true := by
  have h0 : (0 : Float32).isFinite = true := by decide +kernel
  cases entrance with
  | left => exact ⟨isFinite_neg h.distance, h0⟩
  | right => exact ⟨h.distance, h0⟩
  | top => exact ⟨h0, h.distance⟩
  | center => exact ⟨h0, isFinite_neg h.distance⟩
  | bottomLeft => exact ⟨h0, isFinite_neg h.distance⟩
  | bottomRight => exact ⟨h0, isFinite_neg h.distance⟩

namespace Act

def closed (act : Act) (s : StageSettings) (f : Figure) : Option Figure :=
  match act with
  | .spawn .. => some (act.shown (.empty s) 1 f)
  | .gesture _ g _ _ => some (pose g true 1 f)
  | .expression _ image _ => some { f with image := image, overlay := none }
  | .despawn .. => none

theorem pose_pose (g : Gesture) (first second : Bool) (t u : Float32) (f : Figure) :
    pose g second u (pose g first t f) = pose g second u f := by
  cases g <;> rfl

theorem closed_shown (act : Act) (s : StageSettings) (b : Board) (t : Float32) (f : Figure) :
    act.closed s (act.shown b t f) = act.closed s f := by
  cases act with
  | spawn actor image entrance tween => rfl
  | despawn actor exit tweens width => rfl
  | gesture actor g tween secondHalf => exact congrArg some (pose_pose g _ _ _ _ f)
  | expression actor image tween =>
    simp only [closed, shown]
    split <;> rfl

/-- With its present tween the act comes to its end, and the figure stays. -/
def Concludes : Act → Prop
  | .gesture _ .nod _ false | .despawn .. => False
  | _ => True

theorem Concludes.closed_eq {act : Act} (h : act.Concludes) (b : Board) (f : Figure) :
    act.closed b.settings f = some (act.shown b 1 f) := by
  have hd : ∀ entrance, (Board.empty b.settings).direction entrance = b.direction entrance :=
    Board.direction_eq rfl
  cases act with
  | spawn actor image entrance tween =>
    simp only [closed, shown, hd]
    rfl
  | despawn actor exit tweens width => exact h.elim
  | gesture actor g tween secondHalf =>
    cases g with
    | nod =>
      cases secondHalf with
      | false => exact h.elim
      | true => rfl
    | _ => rfl
  | expression actor image tween =>
    have hone : (1 : Float32) ≤ 1 := by decide +kernel
    simp only [closed, shown, if_pos hone]

theorem Concludes.conclude_eq {act : Act} (h : act.Concludes) (b : Board) :
    act.conclude b = (.done, act, b) := by
  cases act with
  | spawn actor image entrance tween => rfl
  | despawn actor exit tweens width => exact h.elim
  | gesture actor g tween secondHalf =>
    cases g with
    | nod =>
      cases secondHalf with
      | false => exact h.elim
      | true => rfl
    | _ => rfl
  | expression actor image tween => rfl

theorem concludes_cases (act : Act) :
    act.Concludes ∨ (∃ actor tween, act = .gesture actor .nod tween false) ∨
      ∃ actor exit tweens width, act = .despawn actor exit tweens width := by
  cases act with
  | spawn actor image entrance tween => exact .inl trivial
  | despawn actor exit tweens width => exact .inr (.inr ⟨_, _, _, _, rfl⟩)
  | gesture actor g tween secondHalf =>
    cases g with
    | nod =>
      cases secondHalf with
      | false => exact .inr (.inl ⟨_, _, rfl⟩)
      | true => exact .inl trivial
    | _ => exact .inl trivial
  | expression actor image tween => exact .inl trivial

def Exits : Act → Prop
  | .despawn .. => True
  | _ => False

theorem Exits.filterMap_closed {act : Act} (h : act.Exits) (s : StageSettings)
    (figures : List Figure) : figures.filterMap (act.closed s) = [] := by
  cases act with
  | despawn actor exit tweens width =>
    apply List.filterMap_eq_nil_iff.mpr
    intro f _
    rfl
  | _ => exact h.elim

theorem Concludes.stays {act : Act} (h : act.Concludes) : ¬ act.Exits := by
  cases act with
  | despawn actor exit tweens width => exact h.elim
  | _ => exact not_false

/-- The act is under way, and its end will leave its actor with the given picture or not at
all. -/
structure Underway (act : Act) (b : Board) (image : Option String) : Prop where
  started : act.tween?.isSome = true
  settles : Settled b.settings ((b.figuresOf act.actor).filterMap (act.closed b.settings)) image

theorem Underway.apply {act : Act} {b : Board} {image : Option String}
    (h : act.Underway b image) (t : Float32) : act.Underway (act.apply b t) image := by
  refine ⟨h.started, ?_⟩
  rw [figuresOf_apply, (act.changes_apply b t).settings,
    filterMap_modifyHead (act.closed_shown b.settings b t)]
  exact h.settles

theorem Underway.settled {act : Act} {b : Board} {image : Option String}
    (h : act.Underway b image) (hc : act.Concludes) :
    Settled b.settings ((act.apply b 1).figuresOf act.actor) image := by
  have hs := h.settles
  have he : act.closed b.settings = some ∘ act.shown b 1 := funext (hc.closed_eq b)
  rw [he, List.filterMap_eq_map] at hs
  rw [figuresOf_apply]
  exact hs.modifyHead

theorem Underway.removed {actor : String} {exit : Entrance} {tweens : Option (Nat × Nat)}
    {width : Float32} {b : Board} {image : Option String}
    (h : (Act.despawn actor exit tweens width).Underway b image) (b' : Board) :
    Settled b.settings ((b'.remove actor).figuresOf actor) image := by
  have hx : (Act.despawn actor exit tweens width).Exits := trivial
  have hs := h.settles
  rw [hx.filterMap_closed] at hs
  rw [Board.figuresOf_remove]
  exact hs

/-- What became of an act and its figures: it is still under way, or they are settled. -/
def Leaves (actor : String) (image : Option String) : Status × Act × Board → Prop
  | (.pending, act, b) => act.actor = actor ∧ act.Underway b image
  | (.done, _, b) => Settled b.settings (b.figuresOf actor) image

theorem Underway.conclude {act : Act} {b : Board} {image : Option String}
    (h : act.Underway b image) : Leaves act.actor image (act.conclude (act.apply b 1)) := by
  have hs := (act.changes_apply b 1).settings
  rcases act.concludes_cases with hc | ⟨actor, tween, rfl⟩ | ⟨actor, exit, tweens, width, rfl⟩
  · rw [hc.conclude_eq, Leaves, hs]
    exact h.settled hc
  · exact ⟨rfl, rfl, (h.apply 1).settles⟩
  · have hr := h.removed ((Act.despawn actor exit tweens width).apply b 1)
    rw [← hs] at hr
    exact hr

theorem Underway.poll {act : Act} {b : Board} {image : Option String} (h : act.Underway b image)
    (ht : b.timeline.ZeroToOne) : Leaves act.actor image (act.poll b) := by
  obtain ⟨id, hid⟩ := Option.isSome_iff_exists.mp h.started
  have hp : b.progress id < 1 ∨ b.progress id = 1 := ht.progress id
  rw [Act.poll, hid]
  rcases hp with hlt | heq
  · simp only [if_pos hlt]
    exact ⟨rfl, h.apply _⟩
  · have hlt : ¬ (1 : Float32) < 1 := by decide +kernel
    simp only [heq, if_neg hlt]
    exact h.conclude

theorem Underway.hasten {act : Act} {b : Board} {image : Option String}
    (h : act.Underway b image) :
    (act.hasten b).1.Underway (act.hasten b).2 image ∧
      ((act.hasten b).1.Concludes ∨
        ∃ exit tweens width, (act.hasten b).1 = .despawn act.actor exit tweens width) := by
  obtain ⟨id, hid⟩ := Option.isSome_iff_exists.mp h.started
  cases act with
  | spawn actor image entrance tween =>
    obtain rfl : tween = some id := hid
    exact ⟨⟨rfl, h.settles⟩, .inl trivial⟩
  | despawn actor exit tweens width =>
    cases tweens with
    | none => cases hid
    | some ids => exact ⟨⟨rfl, h.settles⟩, .inr ⟨exit, some ids, width, rfl⟩⟩
  | gesture actor g tween secondHalf =>
    obtain rfl : tween = some id := hid
    refine ⟨⟨rfl, h.settles⟩, .inl ?_⟩
    cases g <;> trivial
  | expression actor image tween =>
    obtain rfl : tween = some id := hid
    exact ⟨⟨rfl, h.settles⟩, .inl trivial⟩

theorem Underway.finish {act : Act} {b : Board} {image : Option String}
    (h : act.Underway b image) :
    Settled (act.finish b).2.settings ((act.finish b).2.figuresOf act.actor) image := by
  have hn := actor_hasten act b
  obtain ⟨hu, hc⟩ := h.hasten
  rw [Act.finish]
  rcases hh : act.hasten b with ⟨act', b'⟩
  rw [hh] at hu hc hn
  have hs := (act'.changes_apply b' 1).settings
  rcases hc with hc | ⟨exit, tweens, width, hd⟩
  · have he := hu.settled hc
    rw [← hs, hn] at he
    cases act' with
    | despawn actor exit tweens width => exact hc.elim
    | _ => exact he
  · obtain rfl : act' = _ := hd
    have hr := hu.removed ((Act.despawn act.actor exit tweens width).apply b' 1)
    rw [← hs] at hr
    exact hr

/-- What an act that has not started makes of an actor who is off stage, or is there with a picture.
-/
inductive Takes : Act → Option String → Option String → Prop
  | spawn (actor image : String) (entrance : Entrance) :
      Takes (.toSpawn actor image entrance) none (some image)
  | despawn (actor image : String) (exit : Entrance) :
      Takes (.toDespawn actor exit) (some image) none
  | gesture (actor image : String) (g : Gesture) :
      Takes (.toGesture actor g) (some image) (some image)
  | expression (actor before image : String) :
      Takes (.toExpression actor image) (some before) (some image)

theorem dampedWave_one (amplitude frequency : Float32) : dampedWave amplitude frequency 1 = 0 := by
  have hone : (1 : Float32) ≤ 1 := by decide +kernel
  rw [dampedWave, if_pos hone]

theorem atRest_pose {s : StageSettings} {f : Figure} (h : f.AtRest s) (g : Gesture) :
    (pose g true 1 { f with motion := .zero, scale := 1 }).AtRest s := by
  have hzero : ((0 : Float32) == 0) = true := by decide +kernel
  have hscale : 1 + (0 : Float32).abs = 1 := by decide +kernel
  have hnod : (Gesture.nod.shape.motion.y * (1 - 1) == 0) = true := by decide +kernel
  cases g with
  | nod => exact ⟨h.width, h.offset, ⟨hzero, hnod⟩, rfl, h.alpha, h.overlay⟩
  | _ =>
    refine ⟨h.width, h.offset, ?_, ?_, h.alpha, h.overlay⟩
    · simp only [pose, dampedWave_one]
      exact ⟨hzero, hzero⟩
    · simp only [pose, dampedWave_one]
      exact hscale

theorem atRest_entered {s : StageSettings} (hs : s.Finite) (actor image : String)
    (entrance : Entrance) (tween : Option Nat) (offset : Point) :
    ((Act.spawn actor image entrance tween).shown (.empty s) 1
      (.entering actor image offset)).AtRest s where
  width := lerp_zero_one_beq hs.width
  offset :=
    have hd := Board.isFinite_direction (b := .empty s) hs entrance
    ⟨lerp_to_zero_beq hd.1, lerp_to_zero_beq hd.2⟩
  motion :=
    have hz : ((0 : Float32) == 0) = true := by decide +kernel
    ⟨hz, hz⟩
  scale := rfl
  alpha := rfl
  overlay := rfl

theorem Takes.prepare {act : Act} {before after : Option String} (h : act.Takes before after)
    {b : Board} (hs : b.settings.Finite)
    (hb : Settled b.settings (b.figuresOf act.actor) before) :
    (act.prepare b).1.Underway (act.prepare b).2 after := by
  cases h with
  | spawn actor image entrance =>
    refine ⟨rfl, ?_⟩
    have hn : b.figuresOf actor = [] := hb
    have hf : (b.insert (.entering actor image (b.direction entrance)) entrance).figuresOf actor =
        [.entering actor image (b.direction entrance)] := Board.figuresOf_insert hn entrance
    change Settled b.settings (((b.insert _ entrance).figuresOf actor).filterMap _) (some image)
    rw [hf]
    exact ⟨_, rfl, atRest_entered hs actor image entrance _ _, rfl⟩
  | despawn actor image exit =>
    refine ⟨rfl, ?_⟩
    apply List.filterMap_eq_nil_iff.mpr
    intro f _
    rfl
  | gesture actor image g =>
    obtain ⟨f, hf, hr, hi⟩ := hb
    refine ⟨rfl, ?_⟩
    have hm : (b.modify actor _).figuresOf actor = (b.figuresOf actor).modifyHead _ :=
      Board.figuresOf_modify (fun f => { f with motion := .zero, scale := 1 }) (fun _ => rfl) b
    rw [show b.figuresOf actor = [f] from hf] at hm
    change Settled b.settings (((b.modify actor _).figuresOf actor).filterMap _) (some image)
    rw [hm]
    refine ⟨_, rfl, atRest_pose hr g, ?_⟩
    rw [← hi]
    cases g <;> rfl
  | expression actor before image =>
    obtain ⟨f, hf, hr, -⟩ := hb
    refine ⟨rfl, ?_⟩
    change Settled b.settings ((b.figuresOf actor).filterMap _) (some image)
    rw [show b.figuresOf actor = [f] from hf]
    exact ⟨_, rfl, ⟨hr.width, hr.offset, hr.motion, hr.scale, hr.alpha, rfl⟩, rfl⟩

theorem Takes.start {act : Act} {before after : Option String} (h : act.Takes before after)
    {b : Board} (hs : b.settings.Finite)
    (hb : Settled b.settings (b.figuresOf act.actor) before) :
    (act.start b).1.Underway (act.start b).2 after :=
  (h.prepare hs hb).apply 0

end Act

end Dialogue
