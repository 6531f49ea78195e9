import Dialogue.Stage.Queues
import Mathlib.Data.String.Basic
import Mathlib.Logic.Function.Basic
import Mathlib.Logic.Relation
namespace Dialogue

open Relation (ReflTransGen)

variable {τ κ : Type}

def Lane.tasks : Option (Lane τ) → List τ
  | some lane => lane.active :: lane.waiting
  | none => []

namespace Queues

/-- The unfinished tasks of an actor, in order. -/
def tasksIn (lanes : List (String × Lane τ)) (actor : String) : List τ :=
  Lane.tasks (lanes.lookup actor)

def Ordered (lanes : List (String × Lane τ)) : Prop :=
  (lanes.map Prod.fst).Pairwise (· < ·)

@[simp] theorem tasksIn_nil : tasksIn ([] : List (String × Lane τ)) = fun _ => [] :=
  rfl

theorem tasksIn_cons (name : String) (lane : Lane τ) (r : List (String × Lane τ)) :
    tasksIn ((name, lane) :: r) =
      Function.update (tasksIn r) name (lane.active :: lane.waiting) := by
  funext actor
  by_cases h : actor = name
  · subst h
    rw [Function.update_self]
    simp only [tasksIn, List.lookup_cons_self, Lane.tasks]
  · rw [Function.update_of_ne h]
    simp only [tasksIn, List.lookup_cons, beq_eq_false_iff_ne.mpr h]

theorem tasksIn_eq_nil {lanes : List (String × Lane τ)} {name : String}
    (h : name ∉ lanes.map Prod.fst) : tasksIn lanes name = [] := by
  induction lanes with
  | nil => rfl
  | cons e r ih =>
    rw [List.map_cons, List.mem_cons, not_or] at h
    rw [tasksIn_cons, Function.update_of_ne h.1, ih h.2]

theorem Ordered.tail {e : String × Lane τ} {r : List (String × Lane τ)} (h : Ordered (e :: r)) :
    Ordered r :=
  (List.pairwise_cons.mp h).2

theorem Ordered.head_lt {e : String × Lane τ} {r : List (String × Lane τ)} (h : Ordered (e :: r))
    {name : String} (hm : name ∈ r.map Prod.fst) : e.1 < name :=
  (List.pairwise_cons.mp h).1 name hm

theorem Ordered.tasksIn_head {e : String × Lane τ} {r : List (String × Lane τ)}
    (h : Ordered (e :: r)) : tasksIn r e.1 = [] := by
  apply tasksIn_eq_nil
  intro hm
  exact String.lt_irrefl _ (h.head_lt hm)

theorem Ordered.cons {name : String} {lane : Lane τ} {r : List (String × Lane τ)}
    (h : Ordered r) (hn : ∀ other ∈ r.map Prod.fst, name < other) : Ordered ((name, lane) :: r) :=
  List.pairwise_cons.mpr ⟨hn, h⟩

theorem isBusy_eq (q : Queues τ) (actor : String) :
    q.isBusy actor = true ↔ tasksIn q.lanes actor ≠ [] := by
  simp only [isBusy, lane?, tasksIn]
  cases q.lanes.lookup actor with
  | none => simp only [Lane.tasks, Option.isSome_none, Bool.false_eq_true, ne_eq, not_true_eq_false]
  | some lane => simp only [Lane.tasks, Option.isSome_some, ne_eq, reduceCtorEq, not_false_eq_true]

theorem pending_eq (q : Queues τ) (actor : String) :
    q.pending actor = (tasksIn q.lanes actor).tail.length := by
  simp only [pending, lane?, tasksIn]
  cases q.lanes.lookup actor with
  | none => rfl
  | some lane => rfl

theorem mem_tasksIn {q : Queues τ} (h : Ordered q.lanes) {name : String} {lane : Lane τ}
    (hm : (name, lane) ∈ q.lanes) : tasksIn q.lanes name = lane.active :: lane.waiting := by
  obtain ⟨lanes⟩ := q
  induction lanes with
  | nil => cases hm
  | cons e r ih =>
    obtain ⟨other, first⟩ := e
    rw [tasksIn_cons]
    rcases List.mem_cons.mp hm with hm | hm
    · cases hm
      rw [Function.update_self]
    · have hn : other < name := h.head_lt (List.mem_map_of_mem hm)
      rw [Function.update_of_ne (Ne.symm (ne_of_lt hn))]
      exact ih h.tail hm

end Queues

variable [Task τ κ]

/-- A task comes to its end, by a poll or because it is finished. -/
inductive Ends (task : τ) (ctx : κ) : κ → Prop
  | polled {task' : τ} {ctx' : κ} (h : Task.poll task ctx = (.done, task', ctx')) :
      Ends task ctx ctx'
  | finished : Ends task ctx (Task.finish task ctx).2

/-- What can happen to the tasks of the actors and their state once they are in line. -/
inductive Advances : (String → List τ) × κ → (String → List τ) × κ → Prop
  | waits {book : String → List τ} {ctx ctx' : κ} {actor : String} {task task' : τ} {rest : List τ}
      (hb : book actor = task :: rest) (h : Task.poll task ctx = (.pending, task', ctx')) :
      Advances (book, ctx) (Function.update book actor (task' :: rest), ctx')
  | ends {book : String → List τ} {ctx ctx' : κ} {actor : String} {task : τ}
      (hb : book actor = [task]) (h : Ends task ctx ctx') :
      Advances (book, ctx) (Function.update book actor [], ctx')
  | passes {book : String → List τ} {ctx ctx' : κ} {actor : String} {task next : τ}
      {rest : List τ} (hb : book actor = task :: next :: rest) (h : Ends task ctx ctx') :
      Advances (book, ctx)
        (Function.update book actor ((Task.start next ctx').1 :: rest), (Task.start next ctx').2)

theorem Advances.frame {s s' : (String → List τ) × κ} (h : Advances s s') {name : String}
    (hn : s.1 name = []) (tasks : List τ) :
    s'.1 name = [] ∧
      Advances (Function.update s.1 name tasks, s.2) (Function.update s'.1 name tasks, s'.2) := by
  -- Whoever takes the step has a task.
  have other {book : String → List τ} {actor : String} {task : τ} {rest : List τ}
      (hb : book actor = task :: rest) (hn : book name = []) : actor ≠ name := by
    intro he
    rw [he, hn] at hb
    cases hb
  cases h with
  | waits hb h =>
    have ha := other hb hn
    refine ⟨(Function.update_of_ne ha.symm _ _).trans hn, ?_⟩
    rw [Function.update_comm ha]
    exact .waits (by rw [Function.update_of_ne ha]; exact hb) h
  | ends hb h =>
    have ha := other hb hn
    refine ⟨(Function.update_of_ne ha.symm _ _).trans hn, ?_⟩
    rw [Function.update_comm ha]
    exact .ends (by rw [Function.update_of_ne ha]; exact hb) h
  | passes hb h =>
    have ha := other hb hn
    refine ⟨(Function.update_of_ne ha.symm _ _).trans hn, ?_⟩
    rw [Function.update_comm ha]
    exact .passes (by rw [Function.update_of_ne ha]; exact hb) h

theorem Advances.frame_run {s s' : (String → List τ) × κ} (h : ReflTransGen Advances s s')
    {name : String} (hn : s.1 name = []) (tasks : List τ) :
    s'.1 name = [] ∧ ReflTransGen Advances (Function.update s.1 name tasks, s.2)
      (Function.update s'.1 name tasks, s'.2) := by
  induction h with
  | refl => exact ⟨hn, .refl⟩
  | tail _ hs ih =>
    obtain ⟨hn', hr⟩ := ih
    obtain ⟨hn'', hs'⟩ := hs.frame hn' tasks
    exact ⟨hn'', hr.tail hs'⟩

theorem Lane.tick_of_pending {active active' : τ} {ctx ctx' : κ}
    (h : Task.poll active ctx = (.pending, active', ctx')) (waiting : List τ) :
    Lane.tick active waiting ctx = (some ⟨active', waiting⟩, ctx') := by
  cases waiting with
  | nil => rw [Lane.tick.eq_def, h]
  | cons next waiting => rw [Lane.tick.eq_def, h]

theorem Lane.tick_of_done_nil {active active' : τ} {ctx ctx' : κ}
    (h : Task.poll active ctx = (.done, active', ctx')) :
    Lane.tick active [] ctx = (none, ctx') := by
  rw [Lane.tick.eq_def, h]

theorem Lane.tick_of_done_cons {active active' : τ} {ctx ctx' : κ}
    (h : Task.poll active ctx = (.done, active', ctx')) (next : τ) (waiting : List τ) :
    Lane.tick active (next :: waiting) ctx =
      Lane.tick (Task.start next ctx').1 waiting (Task.start next ctx').2 := by
  rw [Lane.tick.eq_def, h]

theorem Lane.advances_tick (actor : String) (active : τ) (waiting : List τ) (ctx : κ)
    {book : String → List τ} (hb : book actor = active :: waiting) :
    ReflTransGen Advances (book, ctx)
      (Function.update book actor (Lane.tasks (Lane.tick active waiting ctx).1),
        (Lane.tick active waiting ctx).2) := by
  induction waiting generalizing active ctx book with
  | nil =>
    rcases hp : Task.poll active ctx with ⟨status, active', ctx'⟩
    cases status with
    | pending =>
      rw [Lane.tick_of_pending hp]
      exact .single (.waits hb hp)
    | done =>
      rw [Lane.tick_of_done_nil hp]
      exact .single (.ends hb (.polled hp))
  | cons next waiting ih =>
    rcases hp : Task.poll active ctx with ⟨status, active', ctx'⟩
    cases status with
    | pending =>
      rw [Lane.tick_of_pending hp]
      exact .single (.waits hb hp)
    | done =>
      rw [Lane.tick_of_done_cons hp]
      have hs : Advances (book, ctx) _ := .passes hb (.polled hp)
      have hr := ih (Task.start next ctx').1 (Task.start next ctx').2
        (Function.update_self actor ((Task.start next ctx').1 :: waiting) book)
      rw [Function.update_idem] at hr
      exact .head hs hr

theorem Lane.advances_drain (actor : String) (active : τ) (waiting : List τ) (ctx : κ)
    {book : String → List τ} (hb : book actor = active :: waiting) :
    ReflTransGen Advances (book, ctx)
      (Function.update book actor [], Lane.drain waiting (Task.finish active ctx).2) := by
  induction waiting generalizing active ctx book with
  | nil => exact .single (.ends hb .finished)
  | cons next waiting ih =>
    have hs : Advances (book, ctx) _ := .passes hb .finished
    have hr := ih (Task.start next (Task.finish active ctx).2).1
      (Task.start next (Task.finish active ctx).2).2
      (Function.update_self actor
        ((Task.start next (Task.finish active ctx).2).1 :: waiting) book)
    rw [Function.update_idem] at hr
    exact .head hs hr

namespace Queues

theorem tickLanes_cons (name : String) (lane : Lane τ) (r : List (String × Lane τ)) (ctx : κ) :
    tickLanes ((name, lane) :: r) ctx =
      let (lane', ctx') := Lane.tick lane.active lane.waiting ctx
      (((lane'.map (name, ·)).toList ++ (tickLanes r ctx').1), (tickLanes r ctx').2) := by
  rcases hl : Lane.tick lane.active lane.waiting ctx with ⟨lane', ctx'⟩
  cases lane' with
  | none => simp only [tickLanes, hl, Option.map_none, Option.toList_none, List.nil_append]
  | some lane' =>
    simp only [tickLanes, hl, Option.map_some, Option.toList_some, List.singleton_append]

theorem map_fst_tickLanes (lanes : List (String × Lane τ)) (ctx : κ) :
    ((tickLanes lanes ctx).1.map Prod.fst).Sublist (lanes.map Prod.fst) := by
  induction lanes generalizing ctx with
  | nil => exact .refl _
  | cons e r ih =>
    obtain ⟨name, lane⟩ := e
    rw [tickLanes_cons]
    rcases Lane.tick lane.active lane.waiting ctx with ⟨lane', ctx'⟩
    cases lane' with
    | none => exact (ih ctx').cons name
    | some lane' => exact (ih ctx').cons_cons name

theorem Ordered.tickLanes {lanes : List (String × Lane τ)} (h : Ordered lanes) (ctx : κ) :
    Ordered (tickLanes lanes ctx).1 :=
  List.Pairwise.sublist (map_fst_tickLanes lanes ctx) h

theorem tasksIn_tickLanes (name : String) (lane : Lane τ) (r : List (String × Lane τ)) (ctx : κ)
    (hn : tasksIn (tickLanes r (Lane.tick lane.active lane.waiting ctx).2).1 name = []) :
    tasksIn (tickLanes ((name, lane) :: r) ctx).1 =
      Function.update (tasksIn (tickLanes r (Lane.tick lane.active lane.waiting ctx).2).1) name
        (Lane.tasks (Lane.tick lane.active lane.waiting ctx).1) := by
  rw [tickLanes_cons]
  rcases hl : Lane.tick lane.active lane.waiting ctx with ⟨lane', ctx'⟩
  rw [hl] at hn
  cases lane' with
  | none =>
    rw [Lane.tasks, ← hn, Function.update_eq_self]
    rfl
  | some lane' => exact tasksIn_cons name lane' _

theorem advances_tickLanes {lanes : List (String × Lane τ)} (h : Ordered lanes) (ctx : κ) :
    ReflTransGen Advances (tasksIn lanes, ctx)
      (tasksIn (tickLanes lanes ctx).1, (tickLanes lanes ctx).2) := by
  induction lanes generalizing ctx with
  | nil => exact .refl
  | cons e r ih =>
    obtain ⟨name, lane⟩ := e
    have hr := ih h.tail (Lane.tick lane.active lane.waiting ctx).2
    obtain ⟨hn, hf⟩ := Advances.frame_run hr h.tasksIn_head
      (Lane.tasks (Lane.tick lane.active lane.waiting ctx).1)
    have hl := Lane.advances_tick name lane.active lane.waiting ctx
      (Function.update_self name (lane.active :: lane.waiting) (tasksIn r))
    rw [Function.update_idem] at hl
    have hc : (tickLanes ((name, lane) :: r) ctx).2 =
        (tickLanes r (Lane.tick lane.active lane.waiting ctx).2).2 := by
      rw [tickLanes_cons]
    rw [tasksIn_cons, tasksIn_tickLanes name lane r ctx hn, hc]
    exact hl.trans hf

theorem advances_tick {q : Queues τ} (h : Ordered q.lanes) (ctx : κ) :
    ReflTransGen Advances (tasksIn q.lanes, ctx)
      (tasksIn (q.tick ctx).1.lanes, (q.tick ctx).2) :=
  advances_tickLanes h ctx

theorem advances_completeAll {q : Queues τ} (h : Ordered q.lanes) (ctx : κ) :
    ReflTransGen Advances (tasksIn q.lanes, ctx) (fun _ => [], (q.completeAll ctx).2) := by
  obtain ⟨lanes⟩ := q
  simp only [completeAll]
  induction lanes generalizing ctx with
  | nil => exact .refl
  | cons e r ih =>
    obtain ⟨name, lane⟩ := e
    have hl := Lane.advances_drain name lane.active lane.waiting ctx
      (Function.update_self name (lane.active :: lane.waiting) (tasksIn r))
    rw [Function.update_idem, ← h.tasksIn_head, Function.update_eq_self] at hl
    rw [tasksIn_cons, List.foldl_cons]
    exact hl.trans (ih _ h.tail)

theorem mem_insert (lanes : List (String × Lane τ)) (actor : String) (task : τ) (ctx : κ) :
    ∀ name ∈ ((insert actor task ctx lanes).1.map Prod.fst),
      name = actor ∨ name ∈ lanes.map Prod.fst := by
  induction lanes with
  | nil =>
    intro name hm
    simp only [insert, List.map_cons, List.map_nil] at hm
    exact .inl (List.mem_singleton.mp hm)
  | cons e r ih =>
    obtain ⟨other, lane⟩ := e
    intro name hm
    simp only [insert] at hm
    split at hm
    · exact .inr hm
    · split at hm
      · exact List.mem_cons.mp hm
      · rcases List.mem_cons.mp hm with rfl | hm
        · exact .inr List.mem_cons_self
        · exact (ih name hm).imp_right (List.mem_cons_of_mem other)

theorem Ordered.insert {lanes : List (String × Lane τ)} (h : Ordered lanes) (actor : String)
    (task : τ) (ctx : κ) : Ordered (insert actor task ctx lanes).1 := by
  induction lanes with
  | nil => exact List.pairwise_singleton _ _
  | cons e r ih =>
    obtain ⟨name, lane⟩ := e
    simp only [Queues.insert]
    split
    · exact h
    · rename_i hne
      split
      · rename_i hlt
        apply h.cons
        intro other hm
        rcases List.mem_cons.mp hm with rfl | hm
        · exact hlt
        · exact String.lt_trans hlt (h.head_lt hm)
      · rename_i hlt
        apply (ih h.tail).cons
        intro other hm
        rcases mem_insert r actor task ctx other hm with rfl | hm
        · exact lt_of_le_of_ne (String.not_lt.mp hlt) hne
        · exact h.head_lt hm

theorem insert_of_idle {lanes : List (String × Lane τ)} {actor : String}
    (hi : tasksIn lanes actor = []) (task : τ) (ctx : κ) :
    tasksIn (insert actor task ctx lanes).1 =
        Function.update (tasksIn lanes) actor [(Task.start task ctx).1] ∧
      (insert actor task ctx lanes).2 = (Task.start task ctx).2 := by
  induction lanes with
  | nil => exact ⟨tasksIn_cons _ _ _, rfl⟩
  | cons e r ih =>
    obtain ⟨name, lane⟩ := e
    have hne : name ≠ actor := by
      intro he
      rw [he, tasksIn_cons, Function.update_self] at hi
      cases hi
    rw [tasksIn_cons, Function.update_of_ne hne.symm] at hi
    obtain ⟨ht, hc⟩ := ih hi
    simp only [insert, if_neg hne]
    split
    · exact ⟨tasksIn_cons _ _ _, rfl⟩
    · refine ⟨?_, hc⟩
      rw [tasksIn_cons, tasksIn_cons, ht, Function.update_comm hne]

theorem insert_of_busy {lanes : List (String × Lane τ)} (h : Ordered lanes) {actor : String}
    (hb : tasksIn lanes actor ≠ []) (task : τ) (ctx : κ) :
    tasksIn (insert actor task ctx lanes).1 =
        Function.update (tasksIn lanes) actor (tasksIn lanes actor ++ [task]) ∧
      (insert actor task ctx lanes).2 = ctx := by
  induction lanes with
  | nil => exact absurd rfl hb
  | cons e r ih =>
    obtain ⟨name, lane⟩ := e
    by_cases hne : name = actor
    · subst hne
      simp only [insert, if_true, tasksIn_cons, Function.update_self, Function.update_idem,
        List.cons_append, and_self]
    · rw [tasksIn_cons, Function.update_of_ne (Ne.symm hne)] at hb
      have hlt : ¬ actor < name := by
        intro hlt
        apply hb
        apply tasksIn_eq_nil
        intro hm
        exact String.lt_irrefl _ (String.lt_trans hlt (h.head_lt hm))
      obtain ⟨ht, hc⟩ := ih h.tail hb
      simp only [insert, if_neg hne, if_neg hlt]
      refine ⟨?_, hc⟩
      rw [tasksIn_cons, tasksIn_cons, ht, Function.update_comm hne,
        Function.update_of_ne (Ne.symm hne)]

end Queues

end Dialogue
