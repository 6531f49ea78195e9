import Dialogue.Proofs.Stage.Repose
namespace Dialogue

open Relation (ReflTransGen)

/-- Acts that have not started lead an actor from one picture, or from off stage, to another. -/
inductive Plan : List Act → Option String → Option String → Prop
  | nil (image : Option String) : Plan [] image image
  | cons {act : Act} {acts : List Act} {before between after : Option String}
      (h : act.Takes before between) (hr : Plan acts between after) :
      Plan (act :: acts) before after

theorem Plan.concat {acts : List Act} {before between after : Option String}
    (h : Plan acts before between) {act : Act} (ha : act.Takes between after) :
    Plan (acts ++ [act]) before after := by
  induction h with
  | nil image => exact .cons ha (.nil after)
  | cons h hr ih => exact .cons h (ih ha)

/-- The acts of an actor, the first of which is under way, lead to the given picture. -/
def Scene (b : Board) (id : String) (goal : Option String) : List Act → Prop
  | [] => Settled b.settings (b.figuresOf id) goal
  | act :: waiting => (∀ a ∈ act :: waiting, a.actor = id) ∧
      ∃ image, act.Underway b image ∧ Plan waiting image goal

theorem Scene.congr {b b' : Board} {id : String} {goal : Option String} {acts : List Act}
    (h : Scene b id goal acts) (hs : b'.settings = b.settings)
    (hf : b'.figuresOf id = b.figuresOf id) : Scene b' id goal acts := by
  cases acts with
  | nil =>
    rw [Scene, hs, hf]
    exact h
  | cons act waiting =>
    obtain ⟨ha, image, hu, hp⟩ := h
    have hid : act.actor = id := ha act List.mem_cons_self
    refine ⟨ha, image, ⟨hu.started, ?_⟩, hp⟩
    have hset := hu.settles
    rw [hid] at hset ⊢
    rw [hs, hf]
    exact hset

structure Performance (s : StageSettings) (goal : String → Option String)
    (book : String → List Act) (b : Board) : Prop where
  settings : b.settings = s
  finite : s.Finite
  timeline : b.timeline.ZeroToOne
  scene : ∀ id, Scene b id (goal id) (book id)

namespace Performance

variable {s : StageSettings} {goal goal' : String → Option String} {book : String → List Act}
  {b b' : Board} {actor : String}

theorem change (h : Performance s goal book b) (hc : Board.Changes actor b b') {acts : List Act}
    (hs : Scene b' actor (goal' actor) acts) (hg : ∀ id, id ≠ actor → goal' id = goal id) :
    Performance s goal' (Function.update book actor acts) b' where
  settings := hc.settings.trans h.settings
  finite := h.finite
  timeline := hc.timeline h.timeline
  scene id := by
    by_cases hid : id = actor
    · subst hid
      rw [Function.update_self]
      exact hs
    · rw [Function.update_of_ne hid, hg id hid]
      exact (h.scene id).congr hc.settings (hc.others id hid)

theorem retime (h : Performance s goal book b) (hs : b'.settings = b.settings)
    (hf : b'.figures = b.figures) (ht : b'.timeline.ZeroToOne) : Performance s goal book b' where
  settings := hs.trans h.settings
  finite := h.finite
  timeline := ht
  scene id := (h.scene id).congr hs (congrArg (List.filter _) hf)

theorem actor_eq (h : Performance s goal book b) {acts : List Act} (hb : book actor = acts)
    {act : Act} (hm : act ∈ acts) : act.actor = actor := by
  have hsc := h.scene actor
  rw [hb] at hsc
  cases acts with
  | nil => cases hm
  | cons first rest => exact hsc.1 act hm

theorem underway (h : Performance s goal book b) {act : Act} {rest : List Act}
    (hb : book actor = act :: rest) :
    act.actor = actor ∧ ∃ image, act.Underway b image ∧ Plan rest image (goal actor) := by
  have hsc := h.scene actor
  rw [hb] at hsc
  exact ⟨hsc.1 act List.mem_cons_self, hsc.2⟩

theorem ends {act : Act} (h : Ends act b b') {image : Option String} (hu : act.Underway b image)
    (ht : b.timeline.ZeroToOne) :
    Board.Changes act.actor b b' ∧ Settled b'.settings (b'.figuresOf act.actor) image := by
  cases h with
  | @polled act' b' hp =>
    have hp : act.poll b = (.done, act', b') := hp
    have hc := act.changes_poll b
    have hl := hu.poll ht
    rw [hp] at hc hl
    exact ⟨hc, hl⟩
  | finished => exact ⟨act.changes_finish b, hu.finish⟩

/-- A performance goes on to the same pictures whatever the acts in line do. -/
theorem advance {t t' : (String → List Act) × Board} (h : Performance s goal t.1 t.2)
    (ha : Advances t t') : Performance s goal t'.1 t'.2 := by
  cases ha with
  | @waits book b b' actor act act' rest hb hp =>
    obtain ⟨rfl, image, hu, hplan⟩ := h.underway hb
    have hown {a : Act} (hm : a ∈ act :: rest) : a.actor = act.actor :=
      h.actor_eq hb hm
    have hp : act.poll b = (.pending, act', b') := hp
    have hc := act.changes_poll b
    have hl := hu.poll h.timeline
    rw [hp] at hc hl
    obtain ⟨hid', hu'⟩ := hl
    refine h.change hc ⟨?_, image, hu', hplan⟩ fun _ _ => rfl
    intro a hm
    rcases List.mem_cons.mp hm with rfl | hm
    · exact hid'
    · exact hown (List.mem_cons_of_mem act hm)
  | @ends book b b' actor act hb he =>
    obtain ⟨rfl, image, hu, hplan⟩ := h.underway hb
    cases hplan with
    | nil =>
      obtain ⟨hc, hs⟩ := ends he hu h.timeline
      exact h.change hc hs fun _ _ => rfl
  | @passes book b b' actor act next rest hb he =>
    obtain ⟨rfl, image, hu, hplan⟩ := h.underway hb
    have hown {a : Act} (hm : a ∈ act :: next :: rest) : a.actor = act.actor :=
      h.actor_eq hb hm
    have hnext : next.actor = act.actor := hown (List.mem_cons_of_mem act List.mem_cons_self)
    cases hplan with
    | cons ht hr =>
      -- The act that ends leaves its actor where the next one takes up.
      obtain ⟨hc, hs⟩ := ends he hu h.timeline
      have hc' := next.changes_start b'
      rw [hnext] at hc'
      rw [← hnext] at hs
      have hu' := ht.start (hc.settings.trans h.settings ▸ h.finite) hs
      refine h.change (hc.trans hc') ⟨?_, _, hu', hr⟩ fun _ _ => rfl
      intro a hm
      rcases List.mem_cons.mp hm with rfl | hm
      · exact (next.actor_start b').trans hnext
      · exact hown (List.mem_cons_of_mem act (List.mem_cons_of_mem next hm))

theorem advances {t t' : (String → List Act) × Board} (h : Performance s goal t.1 t.2)
    (ha : ReflTransGen Advances t t') : Performance s goal t'.1 t'.2 := by
  induction ha with
  | refl => exact h
  | tail _ hs ih => exact ih.advance hs

theorem enqueue {q : Queues Act} (ho : Queues.Ordered q.lanes)
    (h : Performance s goal (Queues.tasksIn q.lanes) b) {act : Act} {after : Option String}
    (ht : act.Takes (goal act.actor) after) :
    Performance s (Function.update goal act.actor after)
      (Queues.tasksIn (q.enqueue act.actor act b).1.lanes) (q.enqueue act.actor act b).2 := by
  have hg : ∀ id, id ≠ act.actor → Function.update goal act.actor after id = goal id := by
    intro id hne
    exact Function.update_of_ne hne after goal
  have hsc := h.scene act.actor
  by_cases hb : Queues.tasksIn q.lanes act.actor = []
  · obtain ⟨hl, hc⟩ := Queues.insert_of_idle hb act b
    simp only [Queues.enqueue, hl, hc]
    rw [hb] at hsc
    have hu := ht.start (h.settings ▸ h.finite) hsc
    refine h.change (act.changes_start b) ?_ hg
    rw [Function.update_self]
    refine ⟨?_, after, hu, .nil after⟩
    intro a hm
    rw [List.mem_singleton.mp hm]
    exact act.actor_start b
  · obtain ⟨hl, hc⟩ := Queues.insert_of_busy ho hb act b
    simp only [Queues.enqueue, hl, hc]
    refine h.change (.refl _ b) ?_ hg
    rw [Function.update_self]
    cases hbook : Queues.tasksIn q.lanes act.actor with
    | nil => exact absurd hbook hb
    | cons first rest =>
      rw [hbook] at hsc
      obtain ⟨hid, image, hu, hplan⟩ := hsc
      refine ⟨?_, image, hu, hplan.concat ht⟩
      intro a hm
      have hm : a ∈ (first :: rest) ++ [act] := hm
      rcases List.mem_append.mp hm with hm | hm
      · exact hid a hm
      · rw [List.mem_singleton.mp hm]

end Performance

end Dialogue
