import Dialogue.Proofs.Stage.Alike
namespace Dialogue

open Relation (ReflTransGen)

/-- An actor's figures and the numbering of the tweens are as they were. -/
structure Board.Spares (id : String) (b b' : Board) : Prop where
  settings : b'.settings = b.settings
  figures : b'.figuresOf id = b.figuresOf id
  numbered : b.timeline.Numbered → b'.timeline.Numbered

/-- An actor's figures are as they were, and so are all tweens but new ones. -/
structure Board.Keeps (id : String) (b b' : Board) : Prop where
  settings : b'.settings = b.settings
  figures : b'.figuresOf id = b.figuresOf id
  timeline : b.timeline.Grows b'.timeline

namespace Board

variable {id actor : String} {b b' b'' : Board}

theorem Spares.refl (id : String) (b : Board) : Spares id b b :=
  ⟨rfl, rfl, fun h => h⟩

theorem Spares.trans (h : Spares id b b') (h' : Spares id b' b'') : Spares id b b'' where
  settings := h'.settings.trans h.settings
  figures := h'.figures.trans h.figures
  numbered hn := h'.numbered (h.numbered hn)

theorem Keeps.refl (id : String) (b : Board) : Keeps id b b :=
  ⟨rfl, rfl, .refl _⟩

theorem Keeps.trans (h : Keeps id b b') (h' : Keeps id b' b'') : Keeps id b b'' where
  settings := h'.settings.trans h.settings
  figures := h'.figures.trans h.figures
  timeline := h.timeline.trans h'.timeline

theorem Keeps.spares (h : Keeps id b b') : Spares id b b' :=
  ⟨h.settings, h.figures, h.timeline.numbered⟩

theorem Changes.spares (h : Changes actor b b') (hne : actor ≠ id)
    (hn : b.timeline.Numbered → b'.timeline.Numbered) : Spares id b b' :=
  ⟨h.settings, h.others id hne.symm, hn⟩

theorem Changes.keeps (h : Changes actor b b') (hne : actor ≠ id)
    (ht : b.timeline.Grows b'.timeline) : Keeps id b b' :=
  ⟨h.settings, h.others id hne.symm, ht⟩

theorem Agree.spare {c c' : Board} (h : Agree id b b') (hs : Spares id b c)
    (hs' : Spares id b' c') : Agree id c c' where
  settings := by rw [hs.settings, hs'.settings, h.settings]
  figures := by rw [hs.figures, hs'.figures, h.figures]
  numbered := hs.numbered h.numbered
  numbered' := hs'.numbered h.numbered'

end Board

namespace Act

theorem timeline_apply (act : Act) (b : Board) (t : Float32) :
    (act.apply b t).timeline = b.timeline := by
  rw [apply_eq]
  rfl

theorem grows_prepare (act : Act) (b : Board) :
    b.timeline.Grows (act.prepare b).2.timeline := by
  cases act with
  | spawn actor image entrance tween => exact .animate _ _ _ _
  | despawn actor exit tweens width =>
    exact (Timeline.Grows.animate b.timeline 0 1 _).trans (.animate _ _ _ _)
  | gesture actor g tween secondHalf => exact .animate _ _ _ _
  | expression actor image tween => exact .animate _ _ _ _

theorem grows_start (act : Act) (b : Board) : b.timeline.Grows (act.start b).2.timeline := by
  rw [start, timeline_apply]
  exact act.grows_prepare b

theorem actor_conclude (act : Act) (b : Board) : (act.conclude b).2.1.actor = act.actor := by
  cases act with
  | gesture actor g tween secondHalf => cases g <;> cases secondHalf <;> rfl
  | _ => rfl

theorem actor_poll (act : Act) (b : Board) : (act.poll b).2.1.actor = act.actor := by
  rw [poll]
  cases act.tween? with
  | none => rfl
  | some k =>
    by_cases hlt : b.progress k < 1
    · simp only [if_pos hlt]
    · simp only [if_neg hlt]
      exact act.actor_conclude _

theorem grows_conclude (act : Act) (b : Board) :
    b.timeline.Grows (act.conclude b).2.2.timeline := by
  cases act with
  | gesture actor g tween secondHalf =>
    cases g with
    | nod =>
      cases secondHalf with
      | false => exact .animate _ _ _ _
      | true => exact .refl _
    | _ => exact .refl _
  | _ => exact .refl _

theorem grows_poll (act : Act) (b : Board) : b.timeline.Grows (act.poll b).2.2.timeline := by
  rw [poll]
  cases act.tween? with
  | none => exact .refl _
  | some k =>
    have ht := act.timeline_apply b (b.progress k)
    by_cases hlt : b.progress k < 1
    · simp only [if_pos hlt, ht]
      exact .refl _
    · simp only [if_neg hlt]
      rw [← ht]
      exact act.grows_conclude _

theorem numbered_hasten (act : Act) {b : Board} (h : b.timeline.Numbered) :
    (act.hasten b).2.timeline.Numbered := by
  cases act with
  | spawn actor image entrance tween =>
    cases tween with
    | none => exact h
    | some k => exact h.finish k
  | despawn actor exit tweens width =>
    cases tweens with
    | none => exact h
    | some ks => exact (h.finish ks.1).finish ks.2
  | gesture actor g tween secondHalf =>
    cases tween with
    | none => exact h
    | some k => exact h.finish k
  | expression actor image tween =>
    cases tween with
    | none => exact h
    | some k => exact h.finish k

theorem numbered_finish (act : Act) {b : Board} (h : b.timeline.Numbered) :
    (act.finish b).2.timeline.Numbered := by
  have hn := act.numbered_hasten h
  rw [finish]
  rcases hh : act.hasten b with ⟨act', b'⟩
  rw [hh, ← act'.timeline_apply b' 1] at hn
  cases act' with
  | _ => exact hn

end Act

/-- Every act in line is one of the actor in whose lane it is. -/
def Owned (book : String → List Act) : Prop :=
  ∀ name, ∀ act ∈ book name, act.actor = name

namespace Owned

variable {book : String → List Act} {actor : String}

theorem update (h : Owned book) {acts : List Act} (ha : ∀ act ∈ acts, act.actor = actor) :
    Owned (Function.update book actor acts) := by
  intro name
  by_cases hn : name = actor
  · subst hn
    rw [Function.update_self]
    exact ha
  · rw [Function.update_of_ne hn]
    exact h name

theorem advance {t t' : (String → List Act) × Board} (h : Owned t.1) (ha : Advances t t') :
    Owned t'.1 := by
  cases ha with
  | @waits book b b' actor act act' rest hb hp =>
    have hp : act.poll b = (.pending, act', b') := hp
    have hid := act.actor_poll b
    rw [hp] at hid
    have hown := h actor
    simp only [hb, List.forall_mem_cons] at hown
    exact h.update (List.forall_mem_cons.mpr ⟨hid.trans hown.1, hown.2⟩)
  | ends hb he => exact h.update nofun
  | @passes book b b' actor act next rest hb he =>
    have hown := h actor
    simp only [hb, List.forall_mem_cons] at hown
    exact h.update (List.forall_mem_cons.mpr ⟨(next.actor_start b').trans hown.2.1, hown.2.2⟩)

theorem advances {t t' : (String → List Act) × Board} (h : Owned t.1)
    (ha : ReflTransGen Advances t t') : Owned t'.1 := by
  induction ha with
  | refl => exact h
  | tail _ hs ih => exact ih.advance hs

theorem enqueue {q : Queues Act} (ho : Queues.Ordered q.lanes)
    (h : Owned (Queues.tasksIn q.lanes)) (act : Act) (b : Board) :
    Owned (Queues.tasksIn (q.enqueue act.actor act b).1.lanes) := by
  by_cases hb : Queues.tasksIn q.lanes act.actor = []
  · simp only [Queues.enqueue, (Queues.insert_of_idle hb act b).1]
    exact h.update (List.forall_mem_singleton.mpr (act.actor_start b))
  · simp only [Queues.enqueue, (Queues.insert_of_busy ho hb act b).1]
    apply h.update
    intro a hm
    rcases List.mem_append.mp hm with hm | hm
    · exact h act.actor a hm
    · rw [List.mem_singleton.mp hm]

end Owned

section Bystander

variable {id name : String}

theorem Lane.keeps_tick (hne : name ≠ id) {active : Act} {waiting : List Act}
    (ho : ∀ act ∈ active :: waiting, act.actor = name) (b : Board) :
    Board.Keeps id b (Lane.tick active waiting b).2 := by
  induction waiting generalizing active b with
  | nil =>
    have hid : active.actor ≠ id := ho active List.mem_cons_self ▸ hne
    have hk := (active.changes_poll b).keeps hid (active.grows_poll b)
    rcases hp : active.poll b with ⟨status, active', b'⟩
    rw [hp] at hk
    cases status with
    | pending =>
      rw [Lane.tick_of_pending hp]
      exact hk
    | done =>
      rw [Lane.tick_of_done_nil hp]
      exact hk
  | cons next waiting ih =>
    have hid : active.actor ≠ id := ho active List.mem_cons_self ▸ hne
    have hk := (active.changes_poll b).keeps hid (active.grows_poll b)
    rcases hp : active.poll b with ⟨status, active', b'⟩
    rw [hp] at hk
    cases status with
    | pending =>
      rw [Lane.tick_of_pending hp]
      exact hk
    | done =>
      rw [Lane.tick_of_done_cons hp]
      rw [List.forall_mem_cons, List.forall_mem_cons] at ho
      have hs := (next.changes_start b').keeps (ho.2.1 ▸ hne) (next.grows_start b')
      have hr := ih (List.forall_mem_cons.mpr ⟨(next.actor_start b').trans ho.2.1, ho.2.2⟩)
        (next.start b').2
      exact (hk.trans hs).trans hr

theorem Lane.spares_drain (hne : name ≠ id) {waiting : List Act}
    (ho : ∀ act ∈ waiting, act.actor = name) (b : Board) :
    Board.Spares id b (Lane.drain waiting b) := by
  induction waiting generalizing b with
  | nil => exact .refl id b
  | cons next waiting ih =>
    rw [List.forall_mem_cons] at ho
    have hs := (next.changes_start b).keeps (ho.1 ▸ hne) (next.grows_start b)
    have hid : (next.start b).1.actor ≠ id := by
      rw [next.actor_start b, ho.1]
      exact hne
    have hf := ((next.start b).1.changes_finish (next.start b).2).spares hid
      ((next.start b).1.numbered_finish)
    exact (hs.spares.trans hf).trans (ih ho.2 _)

end Bystander

def Lane.goOn : List Act → Board → List Act × Board
  | [], b => ([], b)
  | act :: waiting, b =>
    let (lane, b) := Lane.tick act waiting b
    (Lane.tasks lane, b)

def Lane.close : List Act → Board → Board
  | [], b => b
  | act :: waiting, b => Lane.drain waiting (act.finish b).2

namespace Queues

variable {name : String} {lane : Lane Act} {r : List (String × Lane Act)}

theorem owned_head (h : Owned (tasksIn ((name, lane) :: r))) :
    ∀ act ∈ lane.active :: lane.waiting, act.actor = name := by
  have hn := h name
  rw [tasksIn_cons, Function.update_self] at hn
  exact hn

theorem owned_tail (ho : Ordered ((name, lane) :: r)) (h : Owned (tasksIn ((name, lane) :: r))) :
    Owned (tasksIn r) := by
  intro other
  by_cases hn : other = name
  · subst hn
    rw [ho.tasksIn_head]
    exact nofun
  · have ho := h other
    rw [tasksIn_cons, Function.update_of_ne hn] at ho
    exact ho

theorem exists_goOn {lanes : List (String × Lane Act)} (ho : Ordered lanes)
    (hw : Owned (tasksIn lanes)) (id : String) (b : Board) :
    ∃ c, Board.Keeps id b c ∧
      tasksIn (tickLanes lanes b).1 id = (Lane.goOn (tasksIn lanes id) c).1 ∧
      Board.Keeps id (Lane.goOn (tasksIn lanes id) c).2 (tickLanes lanes b).2 := by
  induction lanes generalizing b with
  | nil => exact ⟨b, .refl id b, rfl, .refl id b⟩
  | cons e r ih =>
    obtain ⟨name, lane⟩ := e
    have hr := owned_tail ho hw
    have hlast : (tickLanes ((name, lane) :: r) b).2 =
        (tickLanes r (Lane.tick lane.active lane.waiting b).2).2 := by
      rw [tickLanes_cons]
    have hout : tasksIn (tickLanes r (Lane.tick lane.active lane.waiting b).2).1 name = [] := by
      apply tasksIn_eq_nil
      intro hm
      exact String.lt_irrefl _ (ho.head_lt ((map_fst_tickLanes r _).subset hm))
    obtain ⟨c, hbc, htasks, hcr⟩ := ih ho.tail hr (Lane.tick lane.active lane.waiting b).2
    rw [tasksIn_tickLanes name lane r b hout, hlast, tasksIn_cons]
    by_cases hid : name = id
    · subst hid
      rw [ho.tasksIn_head] at hcr
      rw [Function.update_self, Function.update_self]
      exact ⟨b, .refl name b, rfl, hbc.trans hcr⟩
    · rw [Function.update_of_ne (Ne.symm hid), Function.update_of_ne (Ne.symm hid)]
      exact ⟨c, (Lane.keeps_tick hid (owned_head hw) b).trans hbc, htasks, hcr⟩

theorem exists_close {q : Queues Act} (ho : Ordered q.lanes) (hw : Owned (tasksIn q.lanes))
    (id : String) (b : Board) :
    ∃ c, Board.Spares id b c ∧
      Board.Spares id (Lane.close (tasksIn q.lanes id) c) (q.completeAll b).2 := by
  obtain ⟨lanes⟩ := q
  simp only [completeAll]
  induction lanes generalizing b with
  | nil => exact ⟨b, .refl id b, .refl id b⟩
  | cons e r ih =>
    obtain ⟨name, lane⟩ := e
    have hown := owned_head hw
    obtain ⟨c, hbc, hcr⟩ := ih (Lane.drain lane.waiting (Task.finish lane.active b).2) ho.tail
      (owned_tail ho hw)
    rw [tasksIn_cons, List.foldl_cons]
    by_cases hid : name = id
    · subst hid
      rw [ho.tasksIn_head] at hcr
      rw [Function.update_self]
      exact ⟨b, .refl name b, hbc.trans hcr⟩
    · rw [List.forall_mem_cons] at hown
      have hf := (lane.active.changes_finish b).spares (hown.1 ▸ hid) lane.active.numbered_finish
      rw [Function.update_of_ne (Ne.symm hid)]
      exact ⟨c, (hf.trans (Lane.spares_drain hid hown.2 _)).trans hbc, hcr⟩

end Queues

/-- In two runs the acts of one actor have come equally far and lead to the same. -/
inductive Twins (id : String) (goal : Option String) :
    List Act → Board → List Act → Board → Prop
  | idle {b b' : Board} (ha : b.Agree id b') (hn : goal = none → b.figuresOf id = []) :
      Twins id goal [] b [] b'
  | busy {act act' : Act} {waiting : List Act} {b b' : Board} {image : Option String}
      (ha : b.Agree id b') (h : act.Alike (b.timeline.Same b'.timeline) act')
      (ho : ∀ a ∈ act :: waiting, a.actor = id) (hn : image = none → act.Exits)
      (hp : Plan waiting image goal) : Twins id goal (act :: waiting) b (act' :: waiting) b'

namespace Twins

variable {id : String} {goal image : Option String} {acts acts' : List Act} {b b' c c' : Board}

theorem agree (h : Twins id goal acts b acts' b') : b.Agree id b' := by
  cases h with
  | idle ha hn => exact ha
  | busy ha h ho hn hp => exact ha

theorem nil_iff (h : Twins id goal acts b acts' b') : acts = [] ↔ acts' = [] := by
  cases h with
  | idle ha hn => exact Iff.rfl
  | busy ha h ho hn hp => exact iff_of_false (List.cons_ne_nil _ _) (List.cons_ne_nil _ _)

theorem symm (h : Twins id goal acts b acts' b') : Twins id goal acts' b' acts b := by
  cases h with
  | idle ha hn => exact .idle ha.symm fun hg => ha.figures.symm.trans (hn hg)
  | busy ha h ho hn hp =>
    rw [List.forall_mem_cons] at ho
    exact .busy ha.symm (h.symm.mono fun _ _ hs => hs.symm)
      (List.forall_mem_cons.mpr ⟨h.actor_eq.trans ho.1, ho.2⟩) (fun hi => h.exits (hn hi)) hp

theorem keep (h : Twins id goal acts b acts' b') (hk : b.Keeps id c) (hk' : b'.Keeps id c') :
    Twins id goal acts c acts' c' := by
  cases h with
  | idle ha hn => exact .idle (ha.spare hk.spares hk'.spares) fun hg => hk.figures.trans (hn hg)
  | busy ha h ho hn hp =>
    exact .busy (ha.spare hk.spares hk'.spares)
      (h.mono fun _ _ hs => hs.grow hk.timeline hk'.timeline) ho hn hp

theorem update (h : Twins id goal acts b acts' b') (dt : Float32) :
    Twins id goal acts (b.update dt) acts' (b'.update dt) := by
  cases h with
  | idle ha hn => exact .idle (ha.update dt) hn
  | busy ha h ho hn hp =>
    exact .busy (ha.update dt) (h.mono fun _ _ hs => hs.update ha.numbered ha.numbered' dt) ho hn hp

theorem begin (h : Twins id goal [] b [] b') {act : Act} (hid : act.actor = id)
    {after : Option String} (ht : act.Takes goal after) :
    Twins id after [(act.start b).1] (act.start b).2 [(act.start b').1] (act.start b').2 := by
  subst hid
  cases h with
  | idle ha hn =>
    obtain ⟨has, hs, hexits⟩ := ht.start_alike ha hn
    exact .busy has hs (List.forall_mem_singleton.mpr (act.actor_start b)) hexits (.nil after)

theorem join (h : Twins id goal acts b acts' b') (hne : acts ≠ []) {act : Act}
    (hid : act.actor = id) {after : Option String} (ht : act.Takes goal after) :
    Twins id after (acts ++ [act]) b (acts' ++ [act]) b' := by
  cases h with
  | idle ha hn => exact absurd rfl hne
  | @busy first first' waiting b b' image ha h ho hn hp =>
    refine .busy ha h ?_ hn (hp.concat ht)
    intro a hm
    have hm : a ∈ (first :: waiting) ++ [act] := hm
    rcases List.mem_append.mp hm with hm | hm
    · exact ho a hm
    · rw [List.mem_singleton.mp hm]
      exact hid

theorem tick {waiting : List Act} (hp : Plan waiting image goal) {act act' : Act}
    (ha : b.Agree id b') (h : act.Alike (b.timeline.Same b'.timeline) act')
    (ho : ∀ a ∈ act :: waiting, a.actor = id) (hn : image = none → act.Exits) :
    Twins id goal (Lane.goOn (act :: waiting) b).1 (Lane.goOn (act :: waiting) b).2
      (Lane.goOn (act' :: waiting) b').1 (Lane.goOn (act' :: waiting) b').2 := by
  induction hp generalizing act act' b b' with
  | nil image =>
    obtain rfl := ho act List.mem_cons_self
    have hpoll := h.poll ha
    rcases hb : act.poll b with ⟨status, d, c⟩
    rcases hb' : act'.poll b' with ⟨status', d', c'⟩
    rw [hb, hb'] at hpoll
    cases hpoll with
    | pending ha h hid hl =>
      rw [Lane.goOn, Lane.goOn, Lane.tick_of_pending hb, Lane.tick_of_pending hb']
      exact .busy ha h (List.forall_mem_singleton.mpr hid) (fun hi => hl (hn hi)) (.nil image)
    | done ha hl =>
      rw [Lane.goOn, Lane.goOn, Lane.tick_of_done_nil hb, Lane.tick_of_done_nil hb']
      exact .idle ha fun hi => hl (hn hi)
  | @cons next waiting image between goal ht hr ih =>
    rw [List.forall_mem_cons, List.forall_mem_cons] at ho
    obtain ⟨hact, rfl, hw⟩ := ho
    have hpoll := h.poll (hact ▸ ha)
    rcases hb : act.poll b with ⟨status, d, c⟩
    rcases hb' : act'.poll b' with ⟨status', d', c'⟩
    rw [hb, hb', hact] at hpoll
    cases hpoll with
    | pending ha h hid hl =>
      rw [Lane.goOn, Lane.goOn, Lane.tick_of_pending hb, Lane.tick_of_pending hb']
      exact .busy ha h (List.forall_mem_cons.mpr ⟨hid, List.forall_mem_cons.mpr ⟨rfl, hw⟩⟩)
        (fun hi => hl (hn hi)) (.cons ht hr)
    | done ha hl =>
      rw [Lane.goOn, Lane.goOn, Lane.tick_of_done_cons hb, Lane.tick_of_done_cons hb']
      obtain ⟨has, hs, hexits⟩ := ht.start_alike ha fun hi => hl (hn hi)
      exact ih has hs (List.forall_mem_cons.mpr ⟨next.actor_start c, hw⟩) hexits

theorem goOn (h : Twins id goal acts b acts' b') :
    Twins id goal (Lane.goOn acts b).1 (Lane.goOn acts b).2 (Lane.goOn acts' b').1
      (Lane.goOn acts' b').2 := by
  cases h with
  | idle ha hn => exact .idle ha hn
  | busy ha h ho hn hp => exact tick hp ha h ho hn

theorem drain {waiting : List Act} (hp : Plan waiting image goal) (ha : b.Agree id b')
    (ho : ∀ a ∈ waiting, a.actor = id) (hn : image = none → b.figuresOf id = []) :
    Twins id goal [] (Lane.drain waiting b) [] (Lane.drain waiting b') := by
  induction hp generalizing b b' with
  | nil image => exact .idle ha hn
  | @cons next waiting image between goal ht hr ih =>
    rw [List.forall_mem_cons] at ho
    obtain ⟨rfl, hw⟩ := ho
    obtain ⟨has, hs, hexits⟩ := ht.start_alike ha hn
    have hid := next.actor_start b
    obtain ⟨haf, hgone⟩ := hs.finish (hid ▸ has)
    rw [hid] at haf hgone
    exact ih haf hw fun hi => hgone (hexits hi)

/-- To bring acts to their end it does not matter how far they have come. -/
theorem close (h : Twins id goal acts b acts' b') (hs : b.Spares id c) (hs' : b'.Spares id c') :
    Twins id goal [] (Lane.close acts c) [] (Lane.close acts' c') := by
  cases h with
  | idle ha hn => exact .idle (ha.spare hs hs') fun hg => hs.figures.trans (hn hg)
  | busy ha h ho hn hp =>
    rw [List.forall_mem_cons] at ho
    obtain ⟨rfl, hw⟩ := ho
    obtain ⟨haf, hgone⟩ := h.finish (ha.spare hs hs')
    exact drain hp haf hw fun hi => hgone (hn hi)

end Twins

end Dialogue
