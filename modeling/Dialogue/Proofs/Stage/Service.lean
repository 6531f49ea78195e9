import Dialogue.Proofs.Stage.Requests
namespace Dialogue

inductive Service where
  | started
  | polled (status : Status)
  | finished
deriving DecidableEq, Repr

namespace Service

def closes : Service → Bool
  | .polled .done | .finished => true
  | .started | .polled .pending => false

def ended (services : List Service) : Bool :=
  services.any closes

/-- A task that has started and has not ended: since its start it was pending whenever polled. -/
def Underway (services : List Service) : Prop :=
  ∃ n, services = .started :: List.replicate n (.polled .pending)

/-- A task that has ended was under way until then, and nothing was done with it after. -/
def Closed (services : List Service) : Prop :=
  ∃ before last, services = before ++ [last] ∧ Underway before ∧ last.closes = true

def Lifecycle (services : List Service) : Prop :=
  services = [] ∨ Underway services ∨ Closed services

theorem ended_append (before after : List Service) :
    ended (before ++ after) = (ended before || ended after) :=
  List.any_append

theorem underway_started : Underway [.started] :=
  ⟨0, rfl⟩

theorem Underway.pending {services : List Service} (h : Underway services) :
    Underway (services ++ [.polled .pending]) := by
  obtain ⟨n, rfl⟩ := h
  exact ⟨n + 1, by rw [List.cons_append, ← List.replicate_succ']⟩

theorem Underway.close {services : List Service} (h : Underway services) {last : Service}
    (hl : last.closes = true) : Closed (services ++ [last]) :=
  ⟨services, last, rfl, h, hl⟩

end Service

structure Numbered (τ : Type) where
  serial : Nat
  task : τ

structure Logged (κ : Type) where
  ctx : κ
  log : List (Nat × Service)

variable {τ κ : Type} [Task τ κ]

instance : Task (Numbered τ) (Logged κ) where
  start t c :=
    let (task, ctx) := Task.start t.task c.ctx
    (⟨t.serial, task⟩, ⟨ctx, c.log ++ [(t.serial, .started)]⟩)
  poll t c :=
    let (status, task, ctx) := Task.poll t.task c.ctx
    (status, ⟨t.serial, task⟩, ⟨ctx, c.log ++ [(t.serial, .polled status)]⟩)
  finish t c :=
    let (task, ctx) := Task.finish t.task c.ctx
    (⟨t.serial, task⟩, ⟨ctx, c.log ++ [(t.serial, .finished)]⟩)

theorem Numbered.map_task : Task.Map (Numbered.task : Numbered τ → τ) (Logged.ctx : _ → κ) where
  start _ _ := rfl
  poll _ _ := rfl
  finish _ _ := rfl

omit [Task τ κ] in
/-- Gives the tasks that are asked for the numbers from `n` on, in order. -/
def Request.number (n : Nat) : List (Request τ) → List (Request (Numbered τ))
  | [] => []
  | .enqueue actor task :: r => .enqueue actor ⟨n, task⟩ :: number (n + 1) r
  | .tick :: r => .tick :: number n r
  | .completeAll :: r => .completeAll :: number n r

omit [Task τ κ] in
def Request.owners : List (Request τ) → List String
  | [] => []
  | .enqueue actor _ :: r => actor :: owners r
  | .tick :: r => owners r
  | .completeAll :: r => owners r

omit [Task τ κ] in
theorem Request.map_number (n : Nat) (requests : List (Request τ)) :
    (number n requests).map (Request.map Numbered.task) = requests := by
  induction requests generalizing n with
  | nil => rfl
  | cons r rest ih =>
    cases r with
    | enqueue actor task => exact congrArg (Request.enqueue actor task :: ·) (ih (n + 1))
    | tick => exact congrArg (Request.tick :: ·) (ih n)
    | completeAll => exact congrArg (Request.completeAll :: ·) (ih n)

namespace Queues

/-- A run in which everything that is done with a task is noted. -/
def watched (ctx : κ) (requests : List (Request τ)) : Queues (Numbered τ) × Logged κ :=
  run ⟨ctx, []⟩ (Request.number 0 requests)

theorem map_watched (ctx : κ) (requests : List (Request τ)) :
    (watched ctx requests).map (Queues.map Numbered.task) Logged.ctx = run ctx requests := by
  have h := run_map Numbered.map_task (⟨ctx, []⟩ : Logged κ) (Request.number 0 requests)
  rw [Request.map_number] at h
  exact h.symm

end Queues

def history (log : List (Nat × Service)) (serial : Nat) : List Service :=
  (log.filter (·.1 = serial)).map Prod.snd

theorem history_append_self (log : List (Nat × Service)) (serial : Nat) (service : Service) :
    history (log ++ [(serial, service)]) serial = history log serial ++ [service] := by
  rw [history, List.filter_append, List.map_append]
  simp only [decide_true, List.filter_cons_of_pos, List.filter_nil, List.map_cons, List.map_nil]
  rfl

theorem history_append_of_ne {serial other : Nat} (h : other ≠ serial)
    (log : List (Nat × Service)) (service : Service) :
    history (log ++ [(serial, service)]) other = history log other := by
  rw [history, List.filter_append, List.map_append]
  simp only [h.symm, decide_false, Bool.false_eq_true, not_false_eq_true, List.filter_cons_of_neg,
    List.filter_nil, List.map_nil, List.append_nil]
  rfl

/-- The numbers of the tasks of an actor that have not ended. -/
def unended (owners : List String) (log : List (Nat × Service)) (actor : String) : List Nat :=
  (List.range owners.length).filter fun i =>
    owners[i]? = some actor ∧ Service.ended (history log i) = false

section unended

variable {owners : List String} {log : List (Nat × Service)} {actor : String} {i : Nat}

theorem mem_unended : i ∈ unended owners log actor ↔
    owners[i]? = some actor ∧ Service.ended (history log i) = false := by
  rw [unended, List.mem_filter, List.mem_range, decide_eq_true_eq, and_iff_right_iff_imp]
  intro h
  exact (List.getElem?_eq_some_iff.mp h.1).1

theorem pairwise_unended (owners : List String) (log : List (Nat × Service)) (actor : String) :
    (unended owners log actor).Pairwise (· < ·) :=
  List.Pairwise.filter _ List.pairwise_lt_range

theorem nodup_unended (owners : List String) (log : List (Nat × Service)) (actor : String) :
    (unended owners log actor).Nodup :=
  (pairwise_unended owners log actor).imp Nat.ne_of_lt

theorem unended_append (owners : List String) (log : List (Nat × Service)) (actor : String)
    (i : Nat) (service : Service) :
    unended owners (log ++ [(i, service)]) actor =
      if service.closes then (unended owners log actor).filter (· ≠ i)
      else unended owners log actor := by
  have he : ∀ j, Service.ended (history (log ++ [(i, service)]) j) =
      (Service.ended (history log j) || (decide (j = i) && service.closes)) := by
    intro j
    by_cases hj : j = i
    · subst hj
      rw [history_append_self, Service.ended_append]
      simp only [Service.ended, List.any_cons, List.any_nil, Bool.or_false, decide_true,
        Bool.true_and]
    · rw [history_append_of_ne hj, decide_eq_false hj, Bool.false_and, Bool.or_false]
  cases hs : service.closes with
  | true =>
    rw [if_pos rfl, unended, unended, List.filter_filter]
    apply List.filter_congr
    intro j _
    rw [he j, hs, Bool.and_true, ← Bool.decide_and]
    congr 1
    rw [Bool.or_eq_false_iff, decide_eq_false_iff_not]
    apply propext
    constructor
    · rintro ⟨ho, hj, hi⟩
      exact ⟨hi, ho, hj⟩
    · rintro ⟨hi, ho, hj⟩
      exact ⟨ho, hj, hi⟩
  | false =>
    rw [if_neg Bool.false_ne_true, unended, unended]
    apply List.filter_congr
    intro j _
    rw [he j, hs, Bool.and_false, Bool.or_false]

theorem unended_open {service : Service} (hs : service.closes = false) :
    unended owners (log ++ [(i, service)]) actor = unended owners log actor := by
  rw [unended_append, hs, if_neg Bool.false_ne_true]

theorem unended_close {rest : List Nat} (h : unended owners log actor = i :: rest)
    {last : Service} (hl : last.closes = true) :
    unended owners (log ++ [(i, last)]) actor = rest := by
  have hn := nodup_unended owners log actor
  rw [h, List.nodup_cons] at hn
  rw [unended_append, if_pos hl, h, List.filter_cons_of_neg (by simp only [ne_eq, not_true_eq_false,
    decide_false, Bool.false_eq_true, not_false_eq_true])]
  apply List.filter_eq_self.mpr
  intro j hj
  apply decide_eq_true
  intro he
  rw [he] at hj
  exact hn.1 hj

theorem unended_append_of_ne (h : owners[i]? ≠ some actor) (service : Service) :
    unended owners (log ++ [(i, service)]) actor = unended owners log actor := by
  rw [unended_append]
  split
  · apply List.filter_eq_self.mpr
    intro j hj
    apply decide_eq_true
    intro he
    rw [he] at hj
    exact h (mem_unended.mp hj).1
  · rfl

theorem unended_owner (h : history log owners.length = []) (owner : String) :
    unended (owners ++ [owner]) log actor =
      unended owners log actor ++ if owner = actor then [owners.length] else [] := by
  rw [unended, List.length_append, List.length_singleton, List.range_succ, List.filter_append]
  congr 1
  · apply List.filter_congr
    intro j hj
    rw [List.getElem?_append_left (List.mem_range.mp hj)]
  · rw [List.filter_singleton, List.getElem?_concat_length, h]
    simp only [Option.some.injEq, Service.ended, List.any_nil, and_true, Bool.cond_decide]

end unended

end Dialogue
