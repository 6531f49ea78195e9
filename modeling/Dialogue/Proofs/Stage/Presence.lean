import Dialogue.Proofs.Stage.Attendance
import Dialogue.Proofs.Stage.Deeds
import Dialogue.Proofs.Stage.Orders
namespace Dialogue

open Relation (ReflTransGen)

/-- Who comes is not there yet, in any other case the actor is there, and nobody is there twice. -/
def Deed.Fits (deed : Deed Act Board) : Prop :=
  deed.ctx.lineup.Nodup ∧
    match deed.service, deed.task with
    | .started, .spawn actor .. => actor ∉ deed.ctx.lineup
    | _, act => act.actor ∈ deed.ctx.lineup

namespace Deed

variable {act : Act} {b : Board}

theorem fits_started {goal : Bool} (hn : b.lineup.Nodup)
    (h : act.following (decide (act.actor ∈ b.lineup)) = some goal) : Fits ⟨.started, act, b⟩ := by
  refine ⟨hn, ?_⟩
  cases act with
  | spawn => exact Act.not_mem_of_following h rfl
  | despawn | gesture | expression => exact Act.mem_of_concluding h

theorem fits_other {service : Service} (hs : service ≠ .started) (hn : b.lineup.Nodup)
    (h : act.actor ∈ b.lineup) : Fits ⟨service, act, b⟩ := by
  refine ⟨hn, ?_⟩
  cases service with
  | started => exact absurd rfl hs
  | polled | finished => exact h

end Deed

/-- All agrees so far, and all that was noted suited who was on stage. -/
structure Attended (roster : List String) (s : (String → List (Noted Act)) × Notes Act Board) :
    Prop where
  attendance : Attendance roster (List.map Noted.task ∘ s.1) s.2.ctx.lineup
  fits : ∀ deed ∈ s.2.deeds, deed.Fits

namespace Attended

variable {roster roster' : List String} {s s' : (String → List (Noted Act)) × Notes Act Board}
  {notes notes' : Notes Act Board} {book : String → List (Noted Act)} {actor : String}

theorem add (h : ∀ deed ∈ notes.deeds, deed.Fits) {service : Service} {act : Act} {b : Board}
    (hf : Deed.Fits ⟨service, act, notes.ctx⟩) :
    ∀ deed ∈ (notes.add service act b).deeds, deed.Fits := by
  rw [Notes.add, List.forall_mem_append, List.forall_mem_singleton]
  exact ⟨h, hf⟩

theorem acts_of {tasks : List (Noted Act)} (hb : book actor = tasks) :
    (List.map Noted.task ∘ book) actor = tasks.map Noted.task :=
  congrArg (List.map Noted.task) hb

theorem fits_head (h : Attended roster (book, notes)) {t : Noted Act} {rest : List (Noted Act)}
    (hb : book actor = t :: rest) {service : Service} (hs : service ≠ .started) :
    Deed.Fits ⟨service, t.task, notes.ctx⟩ :=
  Deed.fits_other hs h.attendance.nodup (h.attendance.mem_lineup (acts_of hb))

theorem closes {t : Noted Act} (he : Ends t notes notes') (ht : t.task.tween?.isSome = true) :
    ∃ service b, service ≠ .started ∧ notes' = notes.add service t.task b ∧
      b.lineup = t.task.vacates notes.ctx.lineup := by
  cases he with
  | finished =>
    exact ⟨.finished, (t.task.finish notes.ctx).2, nofun, rfl, t.task.lineup_finish notes.ctx⟩
  | polled hp =>
    obtain ⟨b, hq, rfl⟩ := Noted.poll_cases hp
    have hq : t.task.poll notes.ctx = _ := hq
    have hk := Act.keeps_poll ht notes.ctx
    rw [hq] at hk
    exact ⟨.polled .done, b, nofun, rfl, hk⟩

theorem advance (h : Attended roster s) (ha : Advances s s') : Attended roster s' := by
  cases ha with
  | @waits book notes notes' actor t t' rest hb hp =>
    obtain ⟨b, hq, rfl⟩ := Noted.poll_cases hp
    have hq : t.task.poll notes.ctx = _ := hq
    have ht := h.attendance.started actor t.task _ (acts_of hb)
    have hk := Act.keeps_poll ht notes.ctx
    rw [hq] at hk
    obtain ⟨hid, he, hl⟩ := hk
    constructor
    · rw [Function.comp_update]
      change Attendance roster _ b.lineup
      rw [hl]
      exact h.attendance.waits (acts_of hb) hid he (Act.isSome_poll ht hq)
    · apply add h.fits
      exact h.fits_head hb nofun
  | @ends book notes notes' actor t hb he =>
    obtain ⟨service, b, hs, rfl, hl⟩ := closes he (h.attendance.started actor t.task _ (acts_of hb))
    constructor
    · rw [Function.comp_update]
      change Attendance roster _ b.lineup
      rw [hl]
      exact h.attendance.ends (acts_of hb)
    · apply add h.fits
      exact h.fits_head hb hs
  | @passes book notes notes' actor t next rest hb he =>
    obtain ⟨service, b, hs, rfl, hl⟩ := closes he (h.attendance.started actor t.task _ (acts_of hb))
    constructor
    · rw [Function.comp_update]
      change Attendance roster _ (next.task.start b).2.lineup
      rw [next.task.lineup_start b, hl]
      exact h.attendance.passes (acts_of hb) b
    · -- The end of the first act has been noted, and behind it the start of the next one.
      apply add (add h.fits (h.fits_head hb hs))
      obtain ⟨goal, hg, -⟩ := h.attendance.follows (acts_of hb)
      apply Deed.fits_started
      · change b.lineup.Nodup
        rw [hl]
        exact Act.nodup_vacates h.attendance.nodup t.task
      · change next.task.following (decide (next.task.actor ∈ b.lineup)) = some goal
        rw [hl]
        exact hg

theorem run (h : Attended roster s) (hr : ReflTransGen Advances s s') : Attended roster s' := by
  induction hr with
  | refl => exact h
  | tail _ ha ih => exact ih.advance ha

theorem insert {lanes : List (String × Lane (Noted Act))}
    (h : Attended roster (Queues.tasksIn lanes, notes)) (ho : Queues.Ordered lanes) {act : Act}
    (hf : act.following (decide (act.actor ∈ roster)) = some (decide (act.actor ∈ roster')))
    (hm : ∀ id, id ≠ act.actor → (id ∈ roster' ↔ id ∈ roster)) :
    Attended roster' (Queues.tasksIn (Queues.insert act.actor ⟨act⟩ notes lanes).1,
      (Queues.insert act.actor ⟨act⟩ notes lanes).2) := by
  by_cases hb : Queues.tasksIn lanes act.actor = []
  · obtain ⟨ht, hc⟩ := Queues.insert_of_idle hb ⟨act⟩ notes
    have hb' : (List.map Noted.task ∘ Queues.tasksIn lanes) act.actor = [] :=
      congrArg (List.map Noted.task) hb
    obtain ⟨hs, ha⟩ := h.attendance.begins hb' hf hm notes.ctx
    rw [ht, hc]
    constructor
    · rw [Function.comp_update]
      change Attendance roster' _ (act.start notes.ctx).2.lineup
      rw [act.lineup_start]
      exact ha
    · apply add h.fits
      exact Deed.fits_started h.attendance.nodup hs
  · obtain ⟨ht, hc⟩ := Queues.insert_of_busy ho hb ⟨act⟩ notes
    have hb' : (List.map Noted.task ∘ Queues.tasksIn lanes) act.actor ≠ [] :=
      fun he => hb (List.map_eq_nil_iff.mp he)
    rw [ht, hc]
    constructor
    · rw [Function.comp_update, List.map_append]
      exact h.attendance.joins hb' hf hm
    · exact h.fits

end Attended

namespace Queues

variable {roster roster' : List String} {s : Queues Act × Board} {r : Request Act}

theorem attended_unnoted (h : Attendance roster (tasksIn s.1.lanes) s.2.lineup) :
    Attended roster (tasksIn (unnoted s).1.lanes, (unnoted s).2) := by
  refine ⟨?_, List.forall_mem_nil Deed.Fits⟩
  rw [tasks_noted, map_unnoted]
  exact h

/-- What holds of a request of which all is noted holds of the request. -/
theorem attendance_serve
    (h : Attended roster (tasksIn (serve (unnoted s) (r.map Noted.mk)).1.lanes,
      (serve (unnoted s) (r.map Noted.mk)).2)) :
    Attendance roster (tasksIn (serve s r).1.lanes) (serve s r).2.lineup ∧
      ∀ deed ∈ deeds s r, deed.Fits := by
  refine ⟨?_, h.fits⟩
  have ha := h.attendance
  rw [tasks_noted] at ha
  rw [← serve_unnoted s r]
  exact ha

theorem ordered_unnoted (h : Ordered s.1.lanes) : Ordered (unnoted s).1.lanes := by
  have hm : (unnoted s).1.lanes.map Prod.fst = s.1.lanes.map Prod.fst := by
    simp [unnoted, Queues.map, mapLanes]
  rw [Ordered, hm]
  exact h

theorem attendance_advances (h : Attendance roster (tasksIn s.1.lanes) s.2.lineup)
    (ho : Ordered s.1.lanes) (hr : r = .tick ∨ r = .completeAll) :
    Attendance roster (tasksIn (serve s r).1.lanes) (serve s r).2.lineup ∧
      ∀ deed ∈ deeds s r, deed.Fits := by
  apply attendance_serve
  have hu := ordered_unnoted ho
  rcases hr with rfl | rfl
  · exact (attended_unnoted h).run (advances_tick hu _)
  · exact (attended_unnoted h).run (advances_completeAll hu _)

theorem attendance_enqueue (h : Attendance roster (tasksIn s.1.lanes) s.2.lineup)
    (ho : Ordered s.1.lanes) {act : Act}
    (hf : act.following (decide (act.actor ∈ roster)) = some (decide (act.actor ∈ roster')))
    (hm : ∀ id, id ≠ act.actor → (id ∈ roster' ↔ id ∈ roster)) :
    Attendance roster' (tasksIn (serve s (.enqueue act.actor act)).1.lanes)
        (serve s (.enqueue act.actor act)).2.lineup ∧
      ∀ deed ∈ deeds s (.enqueue act.actor act), deed.Fits := by
  apply attendance_serve
  exact (attended_unnoted h).insert (ordered_unnoted ho) hf hm

end Queues

/-- What an order that is accepted asks of the queues. -/
def Order.request : Order → Request Act
  | .spawn actor image entrance => .enqueue actor (.toSpawn actor image entrance)
  | .despawn actor exit => .enqueue actor (.toDespawn actor exit)
  | .gesture actor g => .enqueue actor (.toGesture actor g)
  | .expression actor image => .enqueue actor (.toExpression actor image)
  | .update _ => .tick
  | .completeAll => .completeAll
  | .clear => .completeAll

namespace Director

/-- The queues and the board as an order finds them: time has passed on the board before it. -/
def found (d : Director) : Order → Queues Act × Board
  | .update dt => (d.queues, d.board.update dt)
  | _ => (d.queues, d.board)

/-- What is done with acts at an order. -/
def deeds (d : Director) (o : Order) : List (Deed Act Board) :=
  if (d.obey o).2 then Queues.deeds (d.found o) o.request else []

/-- An order that is accepted has the queues served, and any other leaves them as they are. -/
theorem queues_obey (d : Director) (o : Order) :
    (d.obey o).1.queues =
      if (d.obey o).2 then (Queues.serve (d.found o) o.request).1 else d.queues := by
  cases o with
  | spawn =>
    rw [obey, spawn]
    split <;> rfl
  | despawn =>
    rw [obey, despawn]
    split <;> rfl
  | gesture =>
    rw [obey, Director.gesture]
    split <;> rfl
  | expression =>
    rw [obey, expression]
    split <;> rfl
  | update | completeAll | clear => rfl

/-- The lanes are in order, and the roster, the acts in line and the actors on stage agree. -/
structure Accounted (d : Director) : Prop where
  ordered : Queues.Ordered d.queues.lanes
  attendance : Attendance d.roster (Queues.tasksIn d.queues.lanes) d.board.lineup

namespace Accounted

variable {d : Director}

theorem start (catalog : Catalog) (settings : StageSettings) :
    Accounted (.start catalog settings) :=
  ⟨.nil, .empty⟩

theorem enqueue (h : Accounted d) {act : Act} {roster : List String}
    (hf : act.following (decide (act.actor ∈ d.roster)) = some (decide (act.actor ∈ roster)))
    (hm : ∀ id, id ≠ act.actor → (id ∈ roster ↔ id ∈ d.roster)) :
    Accounted ({ d with roster := roster }.enqueue act) ∧
      ∀ deed ∈ Queues.deeds (d.queues, d.board) (.enqueue act.actor act), deed.Fits := by
  obtain ⟨ha, hd⟩ :=
    Queues.attendance_enqueue (s := (d.queues, d.board)) h.attendance h.ordered hf hm
  exact ⟨⟨h.ordered.insert act.actor act d.board, ha⟩, hd⟩

/-- An order keeps the account, and all that is done at it suits who is on stage. -/
def Keeps (d : Director) (o : Order) : Prop :=
  Accounted (d.obey o).1 ∧ ∀ deed ∈ d.deeds o, deed.Fits

theorem refused (h : Accounted d) {o : Order} (ho : d.obey o = (d, false)) : Keeps d o := by
  rw [Keeps, deeds, ho]
  exact ⟨h, List.forall_mem_nil Deed.Fits⟩

theorem accepted (h : Accounted d) {o : Order} {act : Act} {roster : List String}
    (ho : d.obey o = ({ d with roster := roster }.enqueue act, true))
    (hr : o.request = .enqueue act.actor act) (hd : d.found o = (d.queues, d.board))
    (hf : act.following (decide (act.actor ∈ d.roster)) = some (decide (act.actor ∈ roster)))
    (hm : ∀ id, id ≠ act.actor → (id ∈ roster ↔ id ∈ d.roster)) : Keeps d o := by
  rw [Keeps, deeds, ho, hr, hd]
  exact h.enqueue hf hm

theorem spawn (h : Accounted d) (actor image : String) (entrance : Entrance) :
    Keeps d (.spawn actor image entrance) := by
  by_cases hc : (d.isPresent actor || !d.catalog image) = true
  · exact h.refused (if_pos hc)
  · have hm : actor ∉ d.roster := by
      intro hm
      apply hc
      rw [isPresent, decide_eq_true hm, Bool.true_or]
    have ho : d.obey (.spawn actor image entrance) =
        ({ d with roster := actor :: d.roster }.enqueue (.toSpawn actor image entrance), true) :=
      if_neg hc
    apply h.accepted ho rfl rfl
    · change Act.following _ (decide (actor ∈ d.roster)) = some (decide (actor ∈ actor :: d.roster))
      rw [decide_eq_false hm, decide_eq_true List.mem_cons_self]
      rfl
    · intro id hid
      exact List.mem_cons.trans (or_iff_right hid)

theorem despawn (h : Accounted d) (actor : String) (exit : Entrance) :
    Keeps d (.despawn actor exit) := by
  by_cases hc : d.isPresent actor = true
  · have ho : d.obey (.despawn actor exit) =
        ({ d with roster := d.roster.filter (· != actor) }.enqueue (.toDespawn actor exit), true) :=
      if_pos hc
    apply h.accepted ho rfl rfl
    · have hn : actor ∉ d.roster.filter (· != actor) := by
        rw [List.mem_filter, bne_self_eq_false]
        exact fun hm => Bool.false_ne_true hm.2
      change Act.following _ (decide (actor ∈ d.roster)) =
        some (decide (actor ∈ d.roster.filter (· != actor)))
      rw [show decide (actor ∈ d.roster) = true from hc, decide_eq_false hn]
      rfl
    · intro id hid
      rw [List.mem_filter, bne_iff_ne]
      exact and_iff_left hid
  · exact h.refused (if_neg hc)

theorem stays (h : Accounted d) {o : Order} {act : Act} (ho : d.obey o = (d.enqueue act, true))
    (hr : o.request = .enqueue act.actor act) (hd : d.found o = (d.queues, d.board))
    (hc : d.isPresent act.actor = true) (hf : act.following true = some true) : Keeps d o := by
  apply h.accepted ho hr hd
  · rw [show decide (act.actor ∈ d.roster) = true from hc]
    exact hf
  · exact fun _ _ => Iff.rfl

theorem gesture (h : Accounted d) (actor : String) (g : Gesture) :
    Keeps d (.gesture actor g) := by
  by_cases hc : d.isPresent actor = true
  · have ho : d.obey (.gesture actor g) = (d.enqueue (.toGesture actor g), true) := if_pos hc
    exact h.stays ho rfl rfl hc rfl
  · exact h.refused (if_neg hc)

theorem expression (h : Accounted d) (actor image : String) :
    Keeps d (.expression actor image) := by
  by_cases hc : (!d.isPresent actor || !d.catalog image) = true
  · exact h.refused (if_pos hc)
  · have hp : d.isPresent actor = true := by
      by_contra hn
      apply hc
      rw [Bool.eq_false_of_not_eq_true hn, Bool.not_false, Bool.true_or]
    have ho : d.obey (.expression actor image) = (d.enqueue (.toExpression actor image), true) :=
      if_neg hc
    exact h.stays ho rfl rfl hp rfl

theorem completeAll (h : Accounted d) : Keeps d .completeAll := by
  obtain ⟨ha, hd⟩ :=
    Queues.attendance_advances (s := (d.queues, d.board)) h.attendance h.ordered (.inr rfl)
  exact ⟨⟨.nil, ha⟩, hd⟩

theorem obey (h : Accounted d) (o : Order) : Keeps d o := by
  cases o with
  | spawn actor image entrance => exact h.spawn actor image entrance
  | despawn actor exit => exact h.despawn actor exit
  | gesture actor g => exact h.gesture actor g
  | expression actor image => exact h.expression actor image
  | update dt =>
    obtain ⟨ha, hd⟩ := Queues.attendance_advances (s := (d.queues, d.board.update dt))
      h.attendance h.ordered (.inl rfl)
    exact ⟨⟨h.ordered.tickLanes (d.board.update dt), ha⟩, hd⟩
  | completeAll => exact h.completeAll
  | clear => exact ⟨⟨.nil, .empty⟩, h.completeAll.2⟩

theorem follow (h : Accounted d) (orders : List Order) : Accounted (d.follow orders) := by
  induction orders generalizing d with
  | nil => exact h
  | cons o rest ih => exact ih (h.obey o).1

end Accounted

/-- Whatever is ordered, nobody is on stage twice, the unfinished acts lead to the roster, and every
deed suits who is there. -/
theorem roster_kept (catalog : Catalog) (settings : StageSettings) (orders : List Order) :
    let d := (start catalog settings).follow orders
    d.board.lineup.Nodup ∧
      (∀ id, (∀ act ∈ Queues.tasksIn d.queues.lanes id, act.actor = id) ∧
        replay (Queues.tasksIn d.queues.lanes id) (decide (id ∈ d.board.lineup)) =
          some (d.isPresent id)) ∧
      ∀ o,
        (d.obey o).1.queues =
            (if (d.obey o).2 then (Queues.serve (d.found o) o.request).1 else d.queues) ∧
          ∀ deed ∈ d.deeds o, deed.Fits := by
  intro d
  have h : Accounted d := (Accounted.start catalog settings).follow orders
  refine ⟨h.attendance.nodup, ?_, ?_⟩
  · intro id
    exact ⟨h.attendance.own id, h.attendance.replay id⟩
  · intro o
    exact ⟨d.queues_obey o, (h.obey o).2⟩

end Director

end Dialogue
