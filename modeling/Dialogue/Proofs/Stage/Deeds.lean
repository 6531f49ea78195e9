import Dialogue.Proofs.Stage.Service
namespace Dialogue

/-- Something that is done with a task, and the state in which it is done. -/
structure Deed (τ κ : Type) where
  service : Service
  task : τ
  ctx : κ

/-- A task of which all is noted that is done with it. -/
structure Noted (τ : Type) where
  task : τ

structure Notes (τ κ : Type) where
  ctx : κ
  deeds : List (Deed τ κ)

def Notes.add {τ κ : Type} (n : Notes τ κ) (service : Service) (task : τ) (ctx : κ) : Notes τ κ :=
  ⟨ctx, n.deeds ++ [⟨service, task, n.ctx⟩]⟩

variable {τ κ : Type} [Task τ κ]

instance : Task (Noted τ) (Notes τ κ) where
  start t n :=
    let (task, ctx) := Task.start t.task n.ctx
    (⟨task⟩, n.add .started t.task ctx)
  poll t n :=
    let (status, task, ctx) := Task.poll t.task n.ctx
    (status, ⟨task⟩, n.add (.polled status) t.task ctx)
  finish t n :=
    let (task, ctx) := Task.finish t.task n.ctx
    (⟨task⟩, n.add .finished t.task ctx)

theorem Noted.map_task : Task.Map (Noted.task : Noted τ → τ) (Notes.ctx : Notes τ κ → κ) where
  start _ _ := rfl
  poll _ _ := rfl
  finish _ _ := rfl

theorem Noted.poll_cases {t t' : Noted τ} {n n' : Notes τ κ} {status : Status}
    (h : Task.poll t n = (status, t', n')) : ∃ ctx,
      Task.poll t.task n.ctx = (status, t'.task, ctx) ∧
        n' = n.add (.polled status) t.task ctx := by
  cases h
  exact ⟨_, rfl, rfl⟩

namespace Queues

def unnoted (s : Queues τ × κ) : Queues (Noted τ) × Notes τ κ :=
  s.map (Queues.map Noted.mk) (⟨·, []⟩)

/-- What is done with the tasks when a request is served. -/
def deeds (s : Queues τ × κ) (r : Request τ) : List (Deed τ κ) :=
  (serve (unnoted s) (r.map Noted.mk)).2.deeds

omit [Task τ κ] in
theorem map_unnoted (s : Queues τ × κ) :
    (unnoted s).map (Queues.map Noted.task) Notes.ctx = s := by
  obtain ⟨⟨lanes⟩, ctx⟩ := s
  have hl : mapLanes Noted.task (mapLanes Noted.mk lanes) = lanes := by
    induction lanes with
    | nil => rfl
    | cons e r ih =>
      obtain ⟨name, active, waiting⟩ := e
      rw [mapLanes_cons, mapLanes_cons, ih, Lane.map, Lane.map, List.map_map]
      exact congrArg (fun waiting => (name, Lane.mk active waiting) :: r) (List.map_id waiting)
  exact congrArg (fun lanes => (Queues.mk lanes, ctx)) hl

omit [Task τ κ] in
theorem map_noted (r : Request τ) : (r.map Noted.mk).map Noted.task = r := by
  cases r <;> rfl

omit [Task τ κ] in
theorem tasks_noted (s : Queues (Noted τ) × Notes τ κ) :
    List.map Noted.task ∘ tasksIn s.1.lanes =
      tasksIn (s.map (Queues.map Noted.task) Notes.ctx).1.lanes := by
  funext actor
  exact (tasksIn_mapLanes Noted.task s.1.lanes actor).symm

/-- To note what is done makes no difference to it. -/
theorem serve_unnoted (s : Queues τ × κ) (r : Request τ) :
    (serve (unnoted s) (r.map Noted.mk)).map (Queues.map Noted.task) Notes.ctx = serve s r := by
  rw [← serve_map Noted.map_task, map_unnoted, map_noted]

end Queues

end Dialogue
