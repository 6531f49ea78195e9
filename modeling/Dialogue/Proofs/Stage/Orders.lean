import Dialogue.Proofs.Stage.Performance
import Dialogue.Stage.Director
namespace Dialogue

inductive Order where
  | spawn (actor image : String) (entrance : Entrance)
  | despawn (actor : String) (exit : Entrance)
  | gesture (actor : String) (gesture : Gesture)
  | expression (actor image : String)
  | update (dt : Float32)
  | completeAll
  | clear

def Order.picture? (id : String) : Order → Option String
  | .spawn actor image _ => if actor = id then some image else none
  | .expression actor image => if actor = id then some image else none
  | _ => none

/-- The last picture given to an actor since the actor came. -/
def lastPicture (orders : List Order) (id : String) : Option String :=
  (orders.filterMap (Order.picture? id)).getLast?

theorem lastPicture_concat (orders : List Order) (o : Order) (id : String) :
    lastPicture (orders ++ [o]) id = (o.picture? id).or (lastPicture orders id) := by
  rw [lastPicture, List.filterMap_append, List.getLast?_append, lastPicture]
  congr 1
  rw [List.filterMap_cons]
  cases o.picture? id <;> rfl

theorem lastPicture_concat_of_none {o : Order} {id : String} (h : o.picture? id = none)
    (orders : List Order) : lastPicture (orders ++ [o]) id = lastPicture orders id := by
  rw [lastPicture_concat, h, Option.none_or]

/-- The picture to which the acts of an actor are to lead, none off stage. -/
def goal (roster : List String) (orders : List Order) (id : String) : Option String :=
  if id ∈ roster then lastPicture orders id else none

namespace Director

def obey (d : Director) : Order → Director × Bool
  | .spawn actor image entrance => d.spawn actor image entrance
  | .despawn actor exit => d.despawn actor exit
  | .gesture actor gesture => d.gesture actor gesture
  | .expression actor image => d.expression actor image
  | .update dt => (d.update dt, true)
  | .completeAll => (d.completeAll, true)
  | .clear => (d.clear, true)

def follow (d : Director) (orders : List Order) : Director :=
  orders.foldl (fun d o => (d.obey o).1) d

def accepted (d : Director) : List Order → List Order
  | [] => []
  | o :: r => if (d.obey o).2 then o :: (d.obey o).1.accepted r else (d.obey o).1.accepted r

structure Staged (s : StageSettings) (past : List Order) (d : Director) : Prop where
  ordered : Queues.Ordered d.queues.lanes
  known : ∀ id ∈ d.roster, (lastPicture past id).isSome = true
  performance : Performance s (goal d.roster past) (Queues.tasksIn d.queues.lanes) d.board

/-- An order was refused and changed nothing, or it was accepted and is staged. -/
def Answered (s : StageSettings) (past : List Order) (d : Director) (o : Order)
    (answer : Director × Bool) : Prop :=
  answer = (d, false) ∨ answer.2 = true ∧ Staged s (past ++ [o]) answer.1

namespace Staged

variable {s : StageSettings} {past : List Order} {d : Director}

theorem start (catalog : Catalog) (hs : s.Finite) :
    Staged s [] (Director.start catalog s) where
  ordered := .nil
  known := nofun
  performance := ⟨rfl, hs, .empty, fun _ => rfl⟩

theorem enqueue (h : Staged s past d) {act : Act} {o : Order} {roster : List String}
    (ht : act.Takes (goal d.roster past act.actor) (goal roster (past ++ [o]) act.actor))
    (hk : act.actor ∈ roster → (lastPicture (past ++ [o]) act.actor).isSome = true)
    (hr : ∀ id, id ≠ act.actor → (id ∈ roster ↔ id ∈ d.roster))
    (ho : ∀ id, id ≠ act.actor → o.picture? id = none) :
    Staged s (past ++ [o]) ({ d with roster := roster }.enqueue act) where
  ordered := h.ordered.insert act.actor act d.board
  known id hm := by
    by_cases hid : id = act.actor
    · rw [hid] at hm ⊢
      exact hk hm
    · rw [lastPicture_concat_of_none (ho id hid)]
      exact h.known id ((hr id hid).mp hm)
  performance := by
    have hp := h.performance.enqueue h.ordered ht
    have hg : Function.update (goal d.roster past) act.actor (goal roster (past ++ [o]) act.actor) =
        goal roster (past ++ [o]) := by
      funext id
      by_cases hid : id = act.actor
      · rw [hid, Function.update_self]
      · rw [Function.update_of_ne hid, goal, goal, lastPicture_concat_of_none (ho id hid)]
        simp only [hr id hid]
    rw [hg] at hp
    exact hp

theorem goal_of_mem (h : Staged s past d) {actor : String} (hm : actor ∈ d.roster) :
    ∃ image, goal d.roster past actor = some image := by
  rw [goal, if_pos hm]
  exact Option.isSome_iff_exists.mp (h.known actor hm)

theorem spawn (h : Staged s past d) (actor image : String) (entrance : Entrance) :
    Answered s past d (.spawn actor image entrance) (d.spawn actor image entrance) := by
  rw [Director.spawn]
  split
  · exact .inl rfl
  · rename_i hn
    have hm : actor ∉ d.roster := by
      intro hm
      rw [isPresent, decide_eq_true hm] at hn
      exact hn rfl
    have hl : lastPicture (past ++ [.spawn actor image entrance]) actor = some image := by
      rw [lastPicture_concat, Order.picture?, if_pos rfl, Option.some_or]
    right
    refine ⟨rfl, ?_⟩
    apply h.enqueue
    · have hb : goal d.roster past actor = none := if_neg hm
      have ha : goal (actor :: d.roster) (past ++ [.spawn actor image entrance]) actor =
          some image := (if_pos List.mem_cons_self).trans hl
      change Act.Takes _ (goal d.roster past actor) (goal (actor :: d.roster) _ actor)
      rw [hb, ha]
      exact .spawn actor image entrance
    · intro _
      change (lastPicture _ actor).isSome = true
      rw [hl]
      rfl
    · intro id hid
      exact List.mem_cons.trans (or_iff_right hid)
    · intro id hid
      exact if_neg (Ne.symm hid)

theorem despawn (h : Staged s past d) (actor : String) (exit : Entrance) :
    Answered s past d (.despawn actor exit) (d.despawn actor exit) := by
  rw [Director.despawn]
  split
  · rename_i hp
    obtain ⟨image, hb⟩ := h.goal_of_mem (of_decide_eq_true hp)
    have hm : actor ∉ d.roster.filter (· != actor) := by
      intro hm
      rw [List.mem_filter, bne_self_eq_false] at hm
      exact Bool.false_ne_true hm.2
    right
    refine ⟨rfl, ?_⟩
    apply h.enqueue
    · have ha : goal (d.roster.filter (· != actor)) (past ++ [.despawn actor exit]) actor = none :=
        if_neg hm
      change Act.Takes _ (goal d.roster past actor) (goal (d.roster.filter (· != actor)) _ actor)
      rw [hb, ha]
      exact .despawn actor image exit
    · intro hm'
      exact absurd hm' hm
    · intro id hid
      rw [List.mem_filter, bne_iff_ne]
      exact and_iff_left hid
    · intro _ _
      rfl
  · exact .inl rfl

theorem gesture (h : Staged s past d) (actor : String) (g : Gesture) :
    Answered s past d (.gesture actor g) (d.gesture actor g) := by
  rw [Director.gesture]
  split
  · rename_i hp
    have hm : actor ∈ d.roster := of_decide_eq_true hp
    obtain ⟨image, hb⟩ := h.goal_of_mem hm
    have hl : lastPicture (past ++ [.gesture actor g]) actor = lastPicture past actor :=
      lastPicture_concat_of_none rfl past
    right
    refine ⟨rfl, ?_⟩
    apply h.enqueue
    · have ha : goal d.roster (past ++ [.gesture actor g]) actor = goal d.roster past actor := by
        rw [goal, goal, hl]
      change Act.Takes _ (goal d.roster past actor) (goal d.roster _ actor)
      rw [ha, hb]
      exact .gesture actor image g
    · intro _
      change (lastPicture _ actor).isSome = true
      rw [hl]
      exact h.known actor hm
    · intro _ _
      rfl
    · intro _ _
      rfl
  · exact .inl rfl

theorem expression (h : Staged s past d) (actor image : String) :
    Answered s past d (.expression actor image) (d.expression actor image) := by
  rw [Director.expression]
  split
  · exact .inl rfl
  · rename_i hn
    have hm : actor ∈ d.roster := by
      by_contra hm
      rw [isPresent, decide_eq_false hm] at hn
      exact hn rfl
    obtain ⟨before, hb⟩ := h.goal_of_mem hm
    have hl : lastPicture (past ++ [.expression actor image]) actor = some image := by
      rw [lastPicture_concat, Order.picture?, if_pos rfl, Option.some_or]
    right
    refine ⟨rfl, ?_⟩
    apply h.enqueue
    · have ha : goal d.roster (past ++ [.expression actor image]) actor = some image :=
        (if_pos hm).trans hl
      change Act.Takes _ (goal d.roster past actor) (goal d.roster _ actor)
      rw [hb, ha]
      exact .expression actor before image
    · intro _
      change (lastPicture _ actor).isSome = true
      rw [hl]
      rfl
    · intro _ _
      rfl
    · intro id hid
      exact if_neg (Ne.symm hid)

theorem concat (h : Staged s past d) {o : Order} (ho : ∀ id, o.picture? id = none) :
    Staged s (past ++ [o]) d where
  ordered := h.ordered
  known id hm := by
    rw [lastPicture_concat_of_none (ho id)]
    exact h.known id hm
  performance := by
    have hg : goal d.roster (past ++ [o]) = goal d.roster past := by
      funext id
      rw [goal, goal, lastPicture_concat_of_none (ho id)]
    rw [hg]
    exact h.performance

theorem update (h : Staged s past d) (dt : Float32) : Staged s past (d.update dt) where
  ordered := h.ordered.tickLanes (d.board.update dt)
  known := h.known
  performance := by
    have hu : Performance s (goal d.roster past) (Queues.tasksIn d.queues.lanes)
        (d.board.update dt) :=
      h.performance.retime rfl rfl (h.performance.timeline.update dt)
    exact Performance.advances hu (Queues.advances_tick h.ordered (d.board.update dt))

theorem completeAll (h : Staged s past d) : Staged s past d.completeAll where
  ordered := .nil
  known := h.known
  performance := by
    have hp := Performance.advances h.performance (Queues.advances_completeAll h.ordered d.board)
    exact hp.retime rfl rfl (.finishAll _)

theorem clear (h : Staged s past d) : Staged s past d.clear where
  ordered := .nil
  known := nofun
  performance :=
    ⟨h.completeAll.performance.settings, h.performance.finite, .finishAll _, fun _ => rfl⟩

theorem obey (h : Staged s past d) (o : Order) : Answered s past d o (d.obey o) := by
  cases o with
  | spawn actor image entrance => exact h.spawn actor image entrance
  | despawn actor exit => exact h.despawn actor exit
  | gesture actor g => exact h.gesture actor g
  | expression actor image => exact h.expression actor image
  | update dt => exact .inr ⟨rfl, (h.update dt).concat fun _ => rfl⟩
  | completeAll => exact .inr ⟨rfl, h.completeAll.concat fun _ => rfl⟩
  | clear => exact .inr ⟨rfl, h.clear.concat fun _ => rfl⟩

theorem follow (h : Staged s past d) (orders : List Order) :
    Staged s (past ++ d.accepted orders) (d.follow orders) := by
  induction orders generalizing past d with
  | nil =>
    rw [accepted, List.append_nil]
    exact h
  | cons o rest ih =>
    rw [accepted, Director.follow, List.foldl_cons]
    -- A refused order changes neither the director nor the past.
    rcases h.obey o with ha | ⟨ha, hs⟩
    · rw [ha]
      exact ih h
    · have hr := ih hs
      rw [List.append_assoc] at hr
      rw [ha]
      exact hr

end Staged

/-- Nobody is seen half way: an actor with no act in line is on the board just if the roster says
so, at rest. -/
theorem atRest_of_not_busy (catalog : Catalog) {settings : StageSettings}
    (hw : settings.actorWidth.isFinite = true) (hd : settings.moveDistance.isFinite = true)
    (orders : List Order) :
    let d := (start catalog settings).follow orders
    (∀ id, d.isBusy id = false →
      (d.isPresent id = true → ∃ f, d.figures.filter (·.id = id) = [f] ∧ f.AtRest settings ∧
        lastPicture ((start catalog settings).accepted orders) id = some f.image) ∧
      (d.isPresent id = false → d.figures.filter (·.id = id) = [])) ∧
    ∀ id, ((start catalog settings).follow (orders ++ [.completeAll])).isBusy id = false := by
  intro d
  have h := (Staged.start catalog ⟨hw, hd⟩).follow orders
  rw [List.nil_append] at h
  constructor
  · intro id hb
    have hn : Queues.tasksIn d.queues.lanes id = [] := by
      by_contra hn
      rw [isBusy, (Queues.isBusy_eq _ _).mpr hn] at hb
      cases hb
    have hs := h.performance.scene id
    rw [hn, Scene, h.performance.settings] at hs
    constructor
    · intro hp
      have hm : id ∈ d.roster := of_decide_eq_true hp
      rw [goal, if_pos hm] at hs
      obtain ⟨image, hi⟩ := Option.isSome_iff_exists.mp (h.known id hm)
      rw [hi] at hs ⊢
      obtain ⟨f, hf, hr, hfi⟩ := hs
      exact ⟨f, hf, hr, hfi ▸ rfl⟩
    · intro hp
      have hm : id ∉ d.roster := of_decide_eq_false hp
      rw [goal, if_neg hm] at hs
      exact hs
  · intro id
    rw [follow, List.foldl_append]
    rfl

theorem atRest_of_skipped_nod :
    (({} : StageSettings).actorWidth.isFinite = true ∧
      ({} : StageSettings).moveDistance.isFinite = true) ∧
    ∃ f, ((start (fun _ => true) {}).follow
        [.spawn "a" "b" .left, .gesture "a" .nod, .update 0.1, .completeAll]).figures.filter
          (·.id = "a") = [f] ∧ f.AtRest {} ∧ f.image = "b" := by
  have hw : ({} : StageSettings).actorWidth.isFinite = true := by decide +kernel
  have hd : ({} : StageSettings).moveDistance.isFinite = true := by decide +kernel
  refine ⟨⟨hw, hd⟩, ?_⟩
  have h := atRest_of_not_busy (fun _ => true) hw hd
    [.spawn "a" "b" .left, .gesture "a" .nod, .update 0.1, .completeAll]
  obtain ⟨f, hf, hr, hi⟩ := (h.1 "a" rfl).1 rfl
  have hl : lastPicture [.spawn "a" "b" .left, .gesture "a" .nod, .update 0.1, .completeAll] "a" =
      some "b" := rfl
  exact ⟨f, hf, hr, Option.some.inj (hi.symm.trans hl)⟩

end Director

end Dialogue
