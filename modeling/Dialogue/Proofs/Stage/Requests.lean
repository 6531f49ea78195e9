import Dialogue.Proofs.Stage.Lanes
import Mathlib.Data.List.Induction
namespace Dialogue

inductive Request (τ : Type) where
  | enqueue (actor : String) (task : τ)
  | tick
  | completeAll

variable {τ κ : Type} [Task τ κ]

namespace Queues

def serve (s : Queues τ × κ) : Request τ → Queues τ × κ
  | .enqueue actor task => s.1.enqueue actor task s.2
  | .tick => s.1.tick s.2
  | .completeAll => s.1.completeAll s.2

def run (ctx : κ) (requests : List (Request τ)) : Queues τ × κ :=
  requests.foldl serve (.empty, ctx)

theorem run_append (ctx : κ) (before after : List (Request τ)) :
    run ctx (before ++ after) = after.foldl serve (run ctx before) :=
  List.foldl_append

theorem Ordered.serve {s : Queues τ × κ} (h : Ordered s.1.lanes) (r : Request τ) :
    Ordered (serve s r).1.lanes := by
  cases r with
  | enqueue actor task => exact h.insert actor task s.2
  | tick => exact h.tickLanes s.2
  | completeAll => exact List.Pairwise.nil

end Queues

/-- A change of the tasks and of their state that what is done with a task does not see. -/
structure Task.Map {τ' κ' : Type} [Task τ' κ'] (f : τ → τ') (g : κ → κ') : Prop where
  start : ∀ task ctx, Task.start (f task) (g ctx) = (Task.start task ctx).map f g
  poll : ∀ task ctx, Task.poll (f task) (g ctx) = (Task.poll task ctx).map id (Prod.map f g)
  finish : ∀ task ctx, Task.finish (f task) (g ctx) = (Task.finish task ctx).map f g

section Map

variable {τ' κ' : Type} [Task τ' κ'] {f : τ → τ'} {g : κ → κ'}

omit [Task τ κ] [Task τ' κ'] in
def Lane.map (f : τ → τ') (lane : Lane τ) : Lane τ' :=
  ⟨f lane.active, lane.waiting.map f⟩

omit [Task τ κ] [Task τ' κ'] in
def Request.map (f : τ → τ') : Request τ → Request τ'
  | .enqueue actor task => .enqueue actor (f task)
  | .tick => .tick
  | .completeAll => .completeAll

omit [Task τ κ] [Task τ' κ'] in
def Queues.mapLanes (f : τ → τ') (lanes : List (String × Lane τ)) : List (String × Lane τ') :=
  lanes.map (Prod.map id (Lane.map f))

omit [Task τ κ] [Task τ' κ'] in
def Queues.map (f : τ → τ') (q : Queues τ) : Queues τ' :=
  ⟨mapLanes f q.lanes⟩

omit [Task τ κ] [Task τ' κ'] in
theorem Queues.mapLanes_cons (f : τ → τ') (name : String) (lane : Lane τ)
    (r : List (String × Lane τ)) :
    mapLanes f ((name, lane) :: r) = (name, lane.map f) :: mapLanes f r :=
  rfl

omit [Task τ κ] [Task τ' κ'] in
theorem Queues.tasksIn_mapLanes (f : τ → τ') (lanes : List (String × Lane τ)) (actor : String) :
    tasksIn (mapLanes f lanes) actor = (tasksIn lanes actor).map f := by
  induction lanes with
  | nil => rfl
  | cons e r ih =>
    obtain ⟨name, lane⟩ := e
    rw [mapLanes_cons, tasksIn_cons, tasksIn_cons]
    by_cases h : actor = name
    · subst h
      rw [Function.update_self, Function.update_self]
      rfl
    · rw [Function.update_of_ne h, Function.update_of_ne h]
      exact ih

theorem Lane.tick_map (h : Task.Map f g) (active : τ) (waiting : List τ) (ctx : κ) :
    Lane.tick (f active) (waiting.map f) (g ctx) =
      (Lane.tick active waiting ctx).map (Option.map (Lane.map f)) g := by
  induction waiting generalizing active ctx with
  | nil =>
    have hf := h.poll active ctx
    rcases hp : Task.poll active ctx with ⟨status, active', ctx'⟩
    rw [hp] at hf
    cases status with
    | pending =>
      rw [Lane.tick_of_pending hp, Lane.tick_of_pending hf]
      rfl
    | done =>
      rw [Lane.tick_of_done_nil hp, List.map_nil, Lane.tick_of_done_nil hf]
      rfl
  | cons next waiting ih =>
    have hf := h.poll active ctx
    rcases hp : Task.poll active ctx with ⟨status, active', ctx'⟩
    rw [hp] at hf
    cases status with
    | pending =>
      rw [Lane.tick_of_pending hp, Lane.tick_of_pending hf]
      rfl
    | done =>
      rw [Lane.tick_of_done_cons hp, List.map_cons, Lane.tick_of_done_cons hf]
      simp only [h.start, Prod.map_fst, Prod.map_snd]
      exact ih _ _

theorem Lane.drain_map (h : Task.Map f g) (waiting : List τ) (ctx : κ) :
    Lane.drain (waiting.map f) (g ctx) = g (Lane.drain waiting ctx) := by
  induction waiting generalizing ctx with
  | nil => rfl
  | cons next waiting ih =>
    simp only [List.map_cons, Lane.drain, h.start, h.finish, Prod.map_fst, Prod.map_snd]
    exact ih _

namespace Queues

theorem insert_map (h : Task.Map f g) (actor : String) (task : τ) (ctx : κ)
    (lanes : List (String × Lane τ)) :
    insert actor (f task) (g ctx) (mapLanes f lanes) =
      (insert actor task ctx lanes).map (mapLanes f) g := by
  induction lanes with
  | nil =>
    simp only [mapLanes, List.map_nil, insert, h.start]
    rfl
  | cons e r ih =>
    obtain ⟨name, lane⟩ := e
    rw [mapLanes_cons]
    simp only [insert]
    split
    · simp only [Prod.map_apply, mapLanes_cons, Lane.map, List.map_append, List.map_cons,
        List.map_nil]
    · split
      · simp only [h.start, Prod.map_apply, Prod.map_fst, Prod.map_snd, mapLanes_cons, Lane.map,
          List.map_nil]
      · simp only [ih, Prod.map_apply, Prod.map_fst, Prod.map_snd, mapLanes_cons]

theorem tickLanes_map (h : Task.Map f g) (lanes : List (String × Lane τ)) (ctx : κ) :
    tickLanes (mapLanes f lanes) (g ctx) = (tickLanes lanes ctx).map (mapLanes f) g := by
  induction lanes generalizing ctx with
  | nil => rfl
  | cons e r ih =>
    obtain ⟨name, lane⟩ := e
    have hl := Lane.tick_map h lane.active lane.waiting ctx
    rw [tickLanes_cons, mapLanes_cons, tickLanes_cons, Lane.map, hl]
    rcases Lane.tick lane.active lane.waiting ctx with ⟨lane', ctx'⟩
    cases lane' with
    | none =>
      simp only [Prod.map_apply, Option.map_none, Option.toList_none, List.nil_append, ih ctx',
        Prod.map_fst, Prod.map_snd]
    | some lane' =>
      simp only [Prod.map_apply, Option.map_some, Option.toList_some, List.singleton_append,
        ih ctx', Prod.map_fst, Prod.map_snd, mapLanes_cons]

theorem completeAll_map (h : Task.Map f g) (q : Queues τ) (ctx : κ) :
    (q.map f).completeAll (g ctx) = (q.completeAll ctx).map (Queues.map f) g := by
  obtain ⟨lanes⟩ := q
  refine Prod.ext rfl ?_
  simp only [completeAll, Queues.map, Prod.map_snd]
  induction lanes generalizing ctx with
  | nil => rfl
  | cons e r ih =>
    obtain ⟨name, lane⟩ := e
    simp only [mapLanes_cons, List.foldl_cons, Lane.map, h.finish, Prod.map_snd, Lane.drain_map h]
    exact ih _

theorem serve_map (h : Task.Map f g) (s : Queues τ × κ) (r : Request τ) :
    serve (s.map (Queues.map f) g) (r.map f) = (serve s r).map (Queues.map f) g := by
  cases r with
  | enqueue actor task =>
    have hi := insert_map h actor task s.2 s.1.lanes
    simp only [serve, enqueue, Request.map, Prod.map_fst, Prod.map_snd, Queues.map, hi]
    rfl
  | tick =>
    have ht := tickLanes_map h s.1.lanes s.2
    simp only [serve, tick, Request.map, Prod.map_fst, Prod.map_snd, Queues.map, ht]
    rfl
  | completeAll => exact completeAll_map h s.1 s.2

theorem run_map (h : Task.Map f g) (ctx : κ) (requests : List (Request τ)) :
    run (g ctx) (requests.map (Request.map f)) = (run ctx requests).map (Queues.map f) g := by
  induction requests using List.reverseRecOn with
  | nil => rfl
  | append_singleton before r ih =>
    rw [List.map_append, run_append, run_append, ih]
    exact serve_map h _ r

end Queues

end Map

end Dialogue
