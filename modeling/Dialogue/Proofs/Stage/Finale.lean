import Dialogue.Proofs.Stage.Performance
namespace Dialogue

open Relation (ReflTransGen)

theorem Settled.modifyHead_eq {s : StageSettings} {figures : List Figure}
    {change : Figure → Figure} {image : Option String} (h : Settled s (figures.map change) image) :
    figures.modifyHead change = figures.map change := by
  cases image with
  | none =>
    obtain rfl := List.map_eq_nil_iff.mp h
    rfl
  | some image =>
    obtain ⟨f, hf, -⟩ := h
    obtain ⟨g, rfl, -⟩ := List.map_eq_singleton_iff.mp hf
    rfl

namespace Act

def opening (s : StageSettings) (act : Act) (figures : List Figure) : List Figure :=
  match act with
  | .spawn actor image entrance _ => [.entering actor image ((Board.empty s).direction entrance)]
  | .gesture .. => figures.modifyHead fun f => { f with motion := .zero, scale := 1 }
  | _ => figures

/-- What an act that has not started makes of the figures of its actor in the end. -/
def outcome (s : StageSettings) (act : Act) (figures : List Figure) : List Figure :=
  (act.opening s figures).filterMap (act.closed s)

theorem closed_start (act : Act) (b : Board) (s : StageSettings) :
    (act.start b).1.closed s = act.closed s := by
  cases act <;> rfl

theorem closed_hasten (act : Act) (b : Board) (s : StageSettings) :
    (act.hasten b).1.closed s = act.closed s := by
  cases act with
  | despawn actor exit tweens width => cases tweens <;> rfl
  | _ => rfl

theorem figures_hasten (act : Act) (b : Board) : (act.hasten b).2.figures = b.figures := by
  cases act with
  | spawn actor image entrance tween => cases tween <;> rfl
  | despawn actor exit tweens width => cases tweens <;> rfl
  | gesture actor g tween secondHalf => cases tween <;> rfl
  | expression actor image tween => cases tween <;> rfl

/-- What became of an act: the figures of its actor are as it leaves them, or it will do so. -/
def Realizes (actor : String) (s : StageSettings) (figures : List Figure) :
    Status × Act × Board → Prop
  | (.pending, act, b) => (b.figuresOf actor).filterMap (act.closed s) = figures
  | (.done, _, b) => b.figuresOf actor = figures

variable {act : Act} {b : Board} {image : Option String}

theorem closed_apply (act : Act) (b : Board) (t : Float32) :
    ((act.apply b t).figuresOf act.actor).filterMap (act.closed b.settings) =
      (b.figuresOf act.actor).filterMap (act.closed b.settings) := by
  rw [figuresOf_apply, filterMap_modifyHead (act.closed_shown b.settings b t)]

theorem Underway.concluded (h : act.Underway b image) (hc : act.Concludes) :
    (act.apply b 1).figuresOf act.actor =
      (b.figuresOf act.actor).filterMap (act.closed b.settings) := by
  have hs := h.settles
  have he : act.closed b.settings = some ∘ act.shown b 1 := funext (hc.closed_eq b)
  rw [he, List.filterMap_eq_map] at hs ⊢
  rw [figuresOf_apply]
  exact hs.modifyHead_eq

theorem Underway.realizes_conclude (h : act.Underway b image) :
    Realizes act.actor b.settings ((b.figuresOf act.actor).filterMap (act.closed b.settings))
      (act.conclude (act.apply b 1)) := by
  rcases act.concludes_cases with hc | ⟨actor, tween, rfl⟩ | ⟨actor, exit, tweens, width, rfl⟩
  · rw [hc.conclude_eq, Realizes]
    exact h.concluded hc
  · exact closed_apply (.gesture actor .nod tween false) b 1
  · have hx : (Act.despawn actor exit tweens width).Exits := trivial
    exact (Board.figuresOf_remove _ _).trans (hx.filterMap_closed _ _).symm

theorem Underway.realizes_poll (h : act.Underway b image) (ht : b.timeline.ZeroToOne) :
    Realizes act.actor b.settings ((b.figuresOf act.actor).filterMap (act.closed b.settings))
      (act.poll b) := by
  obtain ⟨id, hid⟩ := Option.isSome_iff_exists.mp h.started
  have hp : b.progress id < 1 ∨ b.progress id = 1 := ht.progress id
  rw [Act.poll, hid]
  rcases hp with hlt | heq
  · simp only [if_pos hlt]
    exact act.closed_apply b (b.progress id)
  · have hlt : ¬ (1 : Float32) < 1 := by decide +kernel
    simp only [heq, if_neg hlt]
    exact h.realizes_conclude

theorem Underway.realizes_finish (h : act.Underway b image) :
    (act.finish b).2.figuresOf act.actor =
      (b.figuresOf act.actor).filterMap (act.closed b.settings) := by
  have hn := actor_hasten act b
  have hcl := act.closed_hasten b b.settings
  have hs := (act.changes_hasten b).settings
  have hf : (act.hasten b).2.figuresOf act.actor = b.figuresOf act.actor :=
    congrArg (List.filter _) (act.figures_hasten b)
  obtain ⟨hu, hc⟩ := h.hasten
  rw [Act.finish]
  rcases hh : act.hasten b with ⟨act', b'⟩
  rw [hh] at hn hcl hs hf hu hc
  rcases hc with hc | ⟨exit, tweens, width, hd⟩
  · have he := hu.concluded hc
    rw [hn, hs, hcl, hf] at he
    cases act' with
    | despawn actor exit tweens width => exact hc.elim
    | _ => exact he
  · obtain rfl : act' = _ := hd
    have hx : (Act.despawn act.actor exit tweens width).Exits := trivial
    rw [← hcl, hx.filterMap_closed]
    exact Board.figuresOf_remove _ _

theorem Takes.realizes_start {before after : Option String} (h : act.Takes before after)
    (hb : Settled b.settings (b.figuresOf act.actor) before) :
    ((act.start b).2.figuresOf act.actor).filterMap ((act.start b).1.closed b.settings) =
      act.outcome b.settings (b.figuresOf act.actor) := by
  have hs := (act.changes_prepare b).settings
  have hcl := act.closed_start b b.settings
  have hap := (act.prepare b).1.closed_apply (act.prepare b).2 0
  rw [actor_prepare, hs] at hap
  have hp : (act.prepare b).2.figuresOf act.actor =
      act.opening b.settings (b.figuresOf act.actor) := by
    cases h with
    | spawn actor image entrance =>
      have hn : b.figuresOf actor = [] := hb
      have hd : (Board.empty b.settings).direction entrance = b.direction entrance :=
        Board.direction_eq rfl entrance
      have hf : (b.insert (.entering actor image (b.direction entrance)) entrance).figuresOf actor =
          [.entering actor image (b.direction entrance)] := Board.figuresOf_insert hn entrance
      rw [← hd] at hf
      exact hf
    | despawn actor image exit => rfl
    | gesture actor image g =>
      exact Board.figuresOf_modify (fun f => { f with motion := .zero, scale := 1 })
        (fun _ => rfl) b
    | expression actor image => rfl
  rw [outcome, ← hp, ← hcl]
  exact hap

end Act

/-- What the acts of an actor, the first of which is under way, make of the figures of the actor in
the end. -/
def finale (s : StageSettings) (figures : List Figure) : List Act → List Figure
  | [] => figures
  | act :: waiting =>
    waiting.foldl (fun figures a => a.outcome s figures) (figures.filterMap (act.closed s))

namespace Performance

variable {s : StageSettings} {goal : String → Option String}

theorem realizes_ends {act : Act} {b b' : Board} {image : Option String} (h : Ends act b b')
    (hu : act.Underway b image) (ht : b.timeline.ZeroToOne) :
    b'.figuresOf act.actor = (b.figuresOf act.actor).filterMap (act.closed b.settings) := by
  cases h with
  | @polled act' b' hp =>
    have hp : act.poll b = (.done, act', b') := hp
    have hr := hu.realizes_poll ht
    rw [hp] at hr
    exact hr
  | finished => exact hu.realizes_finish

/-- However the acts in line go on, they lead to the same figures, and not only to the same
pictures. -/
theorem finale_advance {t t' : (String → List Act) × Board} (h : Performance s goal t.1 t.2)
    (ha : Advances t t') (id : String) :
    finale s (t'.2.figuresOf id) (t'.1 id) = finale s (t.2.figuresOf id) (t.1 id) := by
  have hset := h.settings
  cases ha with
  | @waits book b b' actor act act' rest hb hp =>
    obtain ⟨rfl, image, hu, -⟩ := h.underway hb
    change b.settings = s at hset
    have hp : act.poll b = (.pending, act', b') := hp
    have hc := act.changes_poll b
    have hr := hu.realizes_poll h.timeline
    rw [hp] at hc hr
    by_cases hne : id = act.actor
    · subst hne
      have hr : (b'.figuresOf act.actor).filterMap (act'.closed s) =
          (b.figuresOf act.actor).filterMap (act.closed s) := by
        rw [← hset]
        exact hr
      simp only [Function.update_self, hb, finale, hr]
    · simp only [Function.update_of_ne hne]
      rw [hc.others id hne]
  | @ends book b b' actor act hb he =>
    obtain ⟨rfl, image, hu, -⟩ := h.underway hb
    change b.settings = s at hset
    by_cases hne : id = act.actor
    · subst hne
      simp only [Function.update_self, hb, finale, List.foldl_nil]
      rw [← hset]
      exact realizes_ends he hu h.timeline
    · simp only [Function.update_of_ne hne]
      rw [(ends he hu h.timeline).1.others id hne]
  | @passes book b b' actor act next rest hb he =>
    obtain ⟨rfl, image, hu, hplan⟩ := h.underway hb
    change b.settings = s at hset
    have hnext : next.actor = act.actor :=
      h.actor_eq hb (List.mem_cons_of_mem act List.mem_cons_self)
    obtain ⟨hc, hs⟩ := ends he hu h.timeline
    by_cases hne : id = act.actor
    · subst hne
      cases hplan with
      | cons ht hr =>
        rw [← hnext] at hs
        have hstart := ht.realizes_start hs
        have hset' : b'.settings = s := hc.settings.trans hset
        rw [hnext, hset', realizes_ends he hu h.timeline, hset] at hstart
        have hstart : ((next.start b').2.figuresOf act.actor).filterMap
            ((next.start b').1.closed s) = _ := hstart
        simp only [Function.update_self, hb, finale, List.foldl_cons]
        exact congrArg (fun figures => rest.foldl (fun figures a => a.outcome s figures) figures)
          hstart
    · have hc' := next.changes_start b'
      rw [hnext] at hc'
      simp only [Function.update_of_ne hne]
      exact congrArg (finale s · (book id)) ((hc.trans hc').others id hne)

end Performance

/-- What can happen without an order: an act goes on, or time passes. -/
inductive Continues : (String → List Act) × Board → (String → List Act) × Board → Prop
  | advances {t t' : (String → List Act) × Board} (h : Advances t t') : Continues t t'
  | retimes {book : String → List Act} {b b' : Board} (hs : b'.settings = b.settings)
      (hf : b'.figures = b.figures) (ht : b.timeline.ZeroToOne → b'.timeline.ZeroToOne) :
      Continues (book, b) (book, b')

namespace Performance

variable {s : StageSettings} {goal : String → Option String} {t t' : (String → List Act) × Board}

theorem proceed (h : Performance s goal t.1 t.2) (hc : Continues t t') :
    Performance s goal t'.1 t'.2 := by
  cases hc with
  | advances ha => exact h.advance ha
  | retimes hs hf ht => exact h.retime hs hf (ht h.timeline)

theorem continues (h : Performance s goal t.1 t.2) (hr : ReflTransGen Continues t t') :
    Performance s goal t'.1 t'.2 := by
  induction hr with
  | refl => exact h
  | tail _ hc ih => exact ih.proceed hc

theorem finale_continues (h : Performance s goal t.1 t.2) (hr : ReflTransGen Continues t t')
    (id : String) :
    finale s (t'.2.figuresOf id) (t'.1 id) = finale s (t.2.figuresOf id) (t.1 id) := by
  induction hr with
  | refl => rfl
  | tail hr hc ih =>
    rw [← ih]
    cases hc with
    | advances ha => exact (h.continues hr).finale_advance ha id
    | @retimes book b b' hs hf ht =>
      have hid : b'.figuresOf id = b.figuresOf id := congrArg (List.filter _) hf
      exact congrArg (finale s · (book id)) hid

end Performance

end Dialogue
