import Dialogue.Proofs.Stage.Orders
import Dialogue.Proofs.Stage.Twins
namespace Dialogue

/-- The actor whom an order names; time, and what brings all to an end, go for everyone. -/
def Order.actor? : Order → Option String
  | .spawn actor _ _ => some actor
  | .despawn actor _ => some actor
  | .gesture actor _ => some actor
  | .expression actor _ => some actor
  | _ => none

def Order.concerns (id : String) (o : Order) : Bool :=
  match o.actor? with
  | some actor => actor = id
  | none => true

/-- What there is to see of one actor after an order, with the answer to it. -/
structure Sighting where
  answer : Bool
  present : Bool
  busy : Bool
  figure : Option Figure

namespace Director

def sightings (id : String) (d : Director) : List Order → List Sighting
  | [] => []
  | o :: r =>
    let (d, answer) := d.obey o
    if o.concerns id then
      ⟨answer, d.isPresent id, d.isBusy id, d.board.get? id⟩ :: d.sightings id r
    else d.sightings id r

structure Sound (d : Director) : Prop where
  ordered : Queues.Ordered d.queues.lanes
  owned : Owned (Queues.tasksIn d.queues.lanes)

namespace Sound

variable {d : Director}

theorem start (catalog : Catalog) (settings : StageSettings) :
    (Director.start catalog settings).Sound :=
  ⟨.nil, nofun⟩

theorem enqueue (h : d.Sound) (act : Act) (roster : List String) :
    ({ d with roster := roster }.enqueue act).Sound :=
  ⟨h.ordered.insert act.actor act d.board, h.owned.enqueue h.ordered act d.board⟩

theorem update (h : d.Sound) (dt : Float32) : (d.update dt).Sound :=
  ⟨h.ordered.tickLanes _, h.owned.advances (Queues.advances_tick h.ordered (d.board.update dt))⟩

theorem completeAll (d : Director) : d.completeAll.Sound :=
  ⟨.nil, nofun⟩

theorem clear (d : Director) : d.clear.Sound :=
  ⟨.nil, nofun⟩

end Sound

/-- Two directors have the same of one actor. -/
structure Twin (id : String) (d d' : Director) : Prop where
  sound : d.Sound
  sound' : d'.Sound
  catalog : d.catalog = d'.catalog
  present : id ∈ d.roster ↔ id ∈ d'.roster
  line : ∃ goal, (goal.isSome = true ↔ id ∈ d.roster) ∧
    Twins id goal (Queues.tasksIn d.queues.lanes id) d.board
      (Queues.tasksIn d'.queues.lanes id) d'.board

namespace Twin

variable {id : String} {d d' : Director}

theorem start (id : String) (catalog : Catalog) (settings : StageSettings) :
    Twin id (.start catalog settings) (.start catalog settings) where
  sound := .start catalog settings
  sound' := .start catalog settings
  catalog := rfl
  present := Iff.rfl
  line := ⟨none, iff_of_false nofun nofun, .idle ⟨rfl, rfl, .empty, .empty⟩ fun _ => rfl⟩

theorem symm (h : Twin id d d') : Twin id d' d where
  sound := h.sound'
  sound' := h.sound
  catalog := h.catalog.symm
  present := h.present.symm
  line := by
    obtain ⟨goal, hg, ht⟩ := h.line
    exact ⟨goal, hg.trans h.present, ht.symm⟩

theorem isPresent_eq (h : Twin id d d') : d.isPresent id = d'.isPresent id :=
  decide_eq_decide.mpr h.present

theorem isBusy_eq (h : Twin id d d') : d.isBusy id = d'.isBusy id := by
  obtain ⟨goal, -, ht⟩ := h.line
  rw [Bool.eq_iff_iff, isBusy, isBusy, Queues.isBusy_eq, Queues.isBusy_eq]
  exact not_congr ht.nil_iff

theorem get?_eq (h : Twin id d d') : d.board.get? id = d'.board.get? id := by
  obtain ⟨goal, -, ht⟩ := h.line
  exact ht.agree.get?_eq

theorem enqueue_other (h : Twin id d d') (act : Act) (hne : act.actor ≠ id)
    {roster : List String} (hr : id ∈ roster ↔ id ∈ d.roster) :
    Twin id ({ d with roster := roster }.enqueue act) d' where
  sound := h.sound.enqueue act roster
  sound' := h.sound'
  catalog := h.catalog
  present := hr.trans h.present
  line := by
    obtain ⟨goal, hg, ht⟩ := h.line
    refine ⟨goal, hg.trans hr.symm, ?_⟩
    by_cases hb : Queues.tasksIn d.queues.lanes act.actor = []
    · obtain ⟨hl, hc⟩ := Queues.insert_of_idle hb act d.board
      have hk := (act.changes_start d.board).keeps hne (act.grows_start d.board)
      simp only [Director.enqueue, Queues.enqueue, hl, hc, Function.update_of_ne hne.symm]
      exact ht.keep hk (.refl id d'.board)
    · obtain ⟨hl, hc⟩ := Queues.insert_of_busy h.sound.ordered hb act d.board
      simp only [Director.enqueue, Queues.enqueue, hl, hc, Function.update_of_ne hne.symm]
      exact ht

/-- An order that names someone else changes nothing for the actor. -/
theorem obey_other (h : Twin id d d') {o : Order} (ho : o.concerns id = false) :
    Twin id (d.obey o).1 d' := by
  cases o with
  | spawn actor image entrance =>
    have hne : actor ≠ id := of_decide_eq_false ho
    simp only [obey, Director.spawn]
    split
    · exact h
    · exact h.enqueue_other (.toSpawn actor image entrance) hne
        (List.mem_cons.trans (or_iff_right hne.symm))
  | despawn actor exit =>
    have hne : actor ≠ id := of_decide_eq_false ho
    simp only [obey, Director.despawn]
    split
    · apply h.enqueue_other (.toDespawn actor exit) hne
      rw [List.mem_filter, bne_iff_ne]
      exact and_iff_left hne.symm
    · exact h
  | gesture actor g =>
    have hne : actor ≠ id := of_decide_eq_false ho
    simp only [obey, Director.gesture]
    split
    · exact h.enqueue_other (.toGesture actor g) hne Iff.rfl
    · exact h
  | expression actor image =>
    have hne : actor ≠ id := of_decide_eq_false ho
    simp only [obey, Director.expression]
    split
    · exact h
    · exact h.enqueue_other (.toExpression actor image) hne Iff.rfl
  | update dt => cases ho
  | completeAll => cases ho
  | clear => cases ho

theorem enqueue (h : Twin id d d') {act : Act} (hid : act.actor = id)
    {roster roster' : List String} (hr : id ∈ roster ↔ id ∈ roster')
    (ht : ∀ goal : Option String, (goal.isSome = true ↔ id ∈ d.roster) →
      ∃ after : Option String, act.Takes goal after ∧ (after.isSome = true ↔ id ∈ roster)) :
    Twin id ({ d with roster := roster }.enqueue act) ({ d' with roster := roster' }.enqueue act)
    where
  sound := h.sound.enqueue act roster
  sound' := h.sound'.enqueue act roster'
  catalog := h.catalog
  present := hr
  line := by
    subst hid
    obtain ⟨goal, hg, htw⟩ := h.line
    obtain ⟨after, htakes, ha⟩ := ht goal hg
    refine ⟨after, ha, ?_⟩
    simp only [Director.enqueue, Queues.enqueue]
    by_cases hb : Queues.tasksIn d.queues.lanes act.actor = []
    · have hb' := htw.nil_iff.mp hb
      obtain ⟨hl, hc⟩ := Queues.insert_of_idle hb act d.board
      obtain ⟨hl', hc'⟩ := Queues.insert_of_idle hb' act d'.board
      rw [hl, hc, hl', hc', Function.update_self, Function.update_self]
      rw [hb, hb'] at htw
      exact htw.begin rfl htakes
    · have hb' : Queues.tasksIn d'.queues.lanes act.actor ≠ [] := not_congr htw.nil_iff |>.mp hb
      obtain ⟨hl, hc⟩ := Queues.insert_of_busy h.sound.ordered hb act d.board
      obtain ⟨hl', hc'⟩ := Queues.insert_of_busy h.sound'.ordered hb' act d'.board
      rw [hl, hc, hl', hc', Function.update_self, Function.update_self]
      exact htw.join hb rfl htakes

theorem update (h : Twin id d d') (dt : Float32) : Twin id (d.update dt) (d'.update dt) where
  sound := h.sound.update dt
  sound' := h.sound'.update dt
  catalog := h.catalog
  present := h.present
  line := by
    obtain ⟨goal, hg, ht⟩ := h.line
    refine ⟨goal, hg, ?_⟩
    obtain ⟨c, hbc, hl, hk⟩ :=
      Queues.exists_goOn h.sound.ordered h.sound.owned id (d.board.update dt)
    obtain ⟨c', hbc', hl', hk'⟩ :=
      Queues.exists_goOn h.sound'.ordered h.sound'.owned id (d'.board.update dt)
    have hgo := (((ht.update dt).keep hbc hbc').goOn).keep hk hk'
    rw [← hl, ← hl'] at hgo
    exact hgo

theorem completeAll (h : Twin id d d') : Twin id d.completeAll d'.completeAll where
  sound := .completeAll d
  sound' := .completeAll d'
  catalog := h.catalog
  present := h.present
  line := by
    obtain ⟨goal, hg, ht⟩ := h.line
    refine ⟨goal, hg, ?_⟩
    obtain ⟨c, hbc, hs⟩ := Queues.exists_close h.sound.ordered h.sound.owned id d.board
    obtain ⟨c', hbc', hs'⟩ := Queues.exists_close h.sound'.ordered h.sound'.owned id d'.board
    have hclose := ht.close hbc hbc'
    cases hclose with
    | idle ha hn =>
      have haq := ha.spare hs hs'
      exact .idle ⟨haq.settings, haq.figures, .finishAll _, .finishAll _⟩
        fun hg => hs.figures.trans (hn hg)

theorem clear (h : Twin id d d') : Twin id d.clear d'.clear where
  sound := .clear d
  sound' := .clear d'
  catalog := h.catalog
  present := Iff.rfl
  line := by
    obtain ⟨goal, -, ht⟩ := h.completeAll.line
    exact ⟨none, iff_of_false nofun nofun,
      .idle ⟨ht.agree.settings, rfl, .finishAll _, .finishAll _⟩ fun _ => rfl⟩

def Concur (id : String) (a a' : Director × Bool) : Prop :=
  Twin id a.1 a'.1 ∧ a.2 = a'.2

theorem spawn (h : Twin id d d') (image : String) (entrance : Entrance) :
    Concur id (d.spawn id image entrance) (d'.spawn id image entrance) := by
  have hguard : (d'.isPresent id || !d'.catalog image) = (d.isPresent id || !d.catalog image) := by
    rw [h.isPresent_eq, h.catalog]
  simp only [Director.spawn, hguard]
  split
  · exact ⟨h, rfl⟩
  · rename_i hn
    refine ⟨h.enqueue rfl (iff_of_true List.mem_cons_self List.mem_cons_self) ?_, rfl⟩
    intro goal hg
    have hm : id ∉ d.roster := by
      intro hm
      rw [isPresent, decide_eq_true hm] at hn
      exact hn rfl
    have hnone : goal = none := by
      rw [← hg, Option.isSome_iff_ne_none, not_not] at hm
      exact hm
    subst hnone
    exact ⟨some image, .spawn id image entrance, iff_of_true rfl List.mem_cons_self⟩

theorem despawn (h : Twin id d d') (exit : Entrance) :
    Concur id (d.despawn id exit) (d'.despawn id exit) := by
  simp only [Director.despawn, ← h.isPresent_eq]
  split
  · rename_i hp
    have hout (roster : List String) : id ∉ roster.filter (· != id) := by
      intro hm
      rw [List.mem_filter, bne_self_eq_false] at hm
      exact Bool.false_ne_true hm.2
    refine ⟨h.enqueue rfl (iff_of_false (hout _) (hout _)) ?_, rfl⟩
    intro goal hg
    obtain ⟨image, rfl⟩ := Option.isSome_iff_exists.mp (hg.mpr (of_decide_eq_true hp))
    exact ⟨none, .despawn id image exit, iff_of_false Bool.false_ne_true (hout _)⟩
  · exact ⟨h, rfl⟩

theorem gesture (h : Twin id d d') (g : Gesture) :
    Concur id (d.gesture id g) (d'.gesture id g) := by
  simp only [Director.gesture, ← h.isPresent_eq]
  split
  · rename_i hp
    refine ⟨h.enqueue rfl h.present ?_, rfl⟩
    intro goal hg
    obtain ⟨image, rfl⟩ := Option.isSome_iff_exists.mp (hg.mpr (of_decide_eq_true hp))
    exact ⟨some image, .gesture id image g, hg⟩
  · exact ⟨h, rfl⟩

theorem expression (h : Twin id d d') (image : String) :
    Concur id (d.expression id image) (d'.expression id image) := by
  have hguard : (!d'.isPresent id || !d'.catalog image) =
      (!d.isPresent id || !d.catalog image) := by
    rw [h.isPresent_eq, h.catalog]
  simp only [Director.expression, hguard]
  split
  · exact ⟨h, rfl⟩
  · rename_i hn
    have hm : id ∈ d.roster := by
      by_contra hm
      rw [isPresent, decide_eq_false hm] at hn
      exact hn rfl
    refine ⟨h.enqueue rfl h.present ?_, rfl⟩
    intro goal hg
    obtain ⟨before, rfl⟩ := Option.isSome_iff_exists.mp (hg.mpr hm)
    exact ⟨some image, .expression id before image, iff_of_true rfl hm⟩

theorem obey (h : Twin id d d') {o : Order} (ho : o.concerns id = true) :
    Concur id (d.obey o) (d'.obey o) := by
  cases o with
  | spawn actor image entrance =>
    obtain rfl : actor = id := of_decide_eq_true ho
    exact h.spawn image entrance
  | despawn actor exit =>
    obtain rfl : actor = id := of_decide_eq_true ho
    exact h.despawn exit
  | gesture actor g =>
    obtain rfl : actor = id := of_decide_eq_true ho
    exact h.gesture g
  | expression actor image =>
    obtain rfl : actor = id := of_decide_eq_true ho
    exact h.expression image
  | update dt => exact ⟨h.update dt, rfl⟩
  | completeAll => exact ⟨h.completeAll, rfl⟩
  | clear => exact ⟨h.clear, rfl⟩

/-- Orders that name others can be left out of one of two runs. -/
theorem sightings_eq (h : Twin id d d') (orders : List Order) :
    d.sightings id orders = d'.sightings id (orders.filter (Order.concerns id)) := by
  induction orders generalizing d d' with
  | nil => rfl
  | cons o rest ih =>
    cases ho : o.concerns id with
    | true =>
      obtain ⟨hobey, hanswer⟩ := h.obey ho
      rw [List.filter_cons_of_pos ho]
      simp only [sightings, ho, if_true, hanswer, hobey.isPresent_eq, hobey.isBusy_eq,
        hobey.get?_eq, ih hobey]
    | false =>
      rw [List.filter_cons_of_neg (Bool.eq_false_iff.mp ho)]
      simp only [sightings, ho, Bool.false_eq_true, if_false]
      exact ih (h.obey_other ho)

theorem follow (h : Twin id d d) (orders : List Order) :
    Twin id (d.follow orders) (d.follow orders) := by
  induction orders generalizing d with
  | nil => exact h
  | cons o rest ih =>
    cases ho : o.concerns id with
    | true => exact ih (h.obey ho).1
    | false => exact ih ((h.obey_other ho).symm.obey_other ho)

end Twin

/-- Whatever is asked for others, an actor is seen to do the same as if it had not been asked. -/
theorem sightings_isolated (catalog : Catalog) (settings : StageSettings) (past : List Order)
    (id : String) (orders : List Order) :
    let d := (start catalog settings).follow past
    d.sightings id orders = d.sightings id (orders.filter (Order.concerns id)) := by
  intro d
  exact ((Twin.start id catalog settings).follow past).sightings_eq orders

end Director

end Dialogue
