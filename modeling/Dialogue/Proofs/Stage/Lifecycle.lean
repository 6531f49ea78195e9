import Dialogue.Proofs.Stage.Ledger
namespace Dialogue

open Relation (ReflTransGen)

variable {τ κ : Type} [Task τ κ]

namespace Ledger

variable {owners : List String} {book : String → List (Numbered τ)} {c c' : Logged κ}
  {task : Numbered τ}

theorem of_poll {task' : Numbered τ} {status : Status}
    (h : Task.poll task c = (status, task', c')) :
    task'.serial = task.serial ∧ c'.log = c.log ++ [(task.serial, .polled status)] := by
  obtain ⟨rfl, hr⟩ := Prod.mk.inj h
  obtain ⟨rfl, rfl⟩ := Prod.mk.inj hr
  exact ⟨rfl, rfl⟩

theorem of_ends (h : Ends task c c') :
    ∃ last : Service, last.closes = true ∧ c'.log = c.log ++ [(task.serial, last)] := by
  cases h with
  | polled h => exact ⟨.polled .done, rfl, (of_poll h).2⟩
  | finished => exact ⟨.finished, rfl, rfl⟩

/-- The ledger is kept by every step of the tasks in line. -/
theorem advance {s s' : (String → List (Numbered τ)) × Logged κ}
    (h : Ledger owners none s.1 s.2.log) (ha : Advances s s') :
    Ledger owners none s'.1 s'.2.log := by
  cases ha with
  | waits hb hp =>
    obtain ⟨hs, hl⟩ := of_poll hp
    simp only [hl]
    exact h.pending hb hs
  | ends hb he =>
    obtain ⟨last, hc, hl⟩ := of_ends he
    simp only [hl]
    exact (h.close hb hc).fill (Function.update_self _ _ _)
  | @passes book c c' actor task next rest hb he =>
    obtain ⟨last, hc, hl⟩ := of_ends he
    have hclosed := h.close hb hc
    have hu : history (c.log ++ [(task.serial, last)]) next.serial = [] := by
      rw [history_append_of_ne (h.serial_ne_of_mem_rest hb List.mem_cons_self)]
      exact h.waiting actor task (next :: rest) hb next List.mem_cons_self
    have hnext := hclosed.start (Function.update_self _ _ _) hu (Task.start next c').1 rfl
    rw [Function.update_idem, ← hl] at hnext
    exact hnext

theorem advances {s s' : (String → List (Numbered τ)) × Logged κ}
    (h : Ledger owners none s.1 s.2.log) (ha : ReflTransGen Advances s s') :
    Ledger owners none s'.1 s'.2.log := by
  induction ha with
  | refl => exact h
  | tail _ hs ih => exact ih.advance hs

theorem enqueue {q : Queues (Numbered τ)} (ho : Queues.Ordered q.lanes)
    (h : Ledger owners none (Queues.tasksIn q.lanes) c.log) (actor : String)
    (ht : task.serial = owners.length) :
    Ledger (owners ++ [actor]) none (Queues.tasksIn (q.enqueue actor task c).1.lanes)
      (q.enqueue actor task c).2.log := by
  by_cases hb : Queues.tasksIn q.lanes actor = []
  · obtain ⟨hl, hc⟩ := Queues.insert_of_idle hb task c
    simp only [Queues.enqueue, hl, hc]
    have hj := h.join (some actor) actor ht fun _ => rfl
    rw [hb, List.nil_append] at hj
    have hu : history c.log task.serial = [] := by
      rw [ht]
      exact h.untouched owners.length (Nat.le_refl _)
    have hs := hj.start (Function.update_self _ _ _) hu (Task.start task c).1 rfl
    rw [Function.update_idem] at hs
    exact hs
  · obtain ⟨hl, hc⟩ := Queues.insert_of_busy ho hb task c
    simp only [Queues.enqueue, hl, hc]
    exact h.join none actor ht fun he => absurd he hb

theorem serve {s : Queues (Numbered τ) × Logged κ} (ho : Queues.Ordered s.1.lanes)
    (h : Ledger owners none (Queues.tasksIn s.1.lanes) s.2.log) :
    ∀ r : Request (Numbered τ),
      (∀ actor t, r = .enqueue actor t → t.serial = owners.length) →
      Ledger (owners ++ Request.owners [r]) none
        (Queues.tasksIn (Queues.serve s r).1.lanes) (Queues.serve s r).2.log
  | .enqueue actor t, ht => h.enqueue ho actor (ht actor t rfl)
  | .tick, _ => by
    rw [Request.owners, Request.owners, List.append_nil]
    exact advances h (Queues.advances_tick ho s.2)
  | .completeAll, _ => by
    rw [Request.owners, Request.owners, List.append_nil]
    exact advances h (Queues.advances_completeAll ho s.2)

theorem run {s : Queues (Numbered τ) × Logged κ} (ho : Queues.Ordered s.1.lanes)
    (h : Ledger owners none (Queues.tasksIn s.1.lanes) s.2.log) (requests : List (Request τ)) :
    let s' := (Request.number owners.length requests).foldl Queues.serve s
    Queues.Ordered s'.1.lanes ∧
      Ledger (owners ++ Request.owners requests) none (Queues.tasksIn s'.1.lanes) s'.2.log := by
  induction requests generalizing owners s with
  | nil =>
    rw [Request.owners, List.append_nil]
    exact ⟨ho, h⟩
  | cons r rest ih =>
    cases r with
    | enqueue actor task =>
      have hs := h.serve ho (.enqueue actor ⟨owners.length, task⟩) (by
        intro _ _ he
        cases he
        rfl)
      have hr := ih (ho.serve _) hs
      rw [Request.owners, Request.owners, List.length_append, List.append_assoc] at hr
      exact hr
    | tick =>
      have hs := h.serve ho .tick nofun
      rw [Request.owners, Request.owners, List.append_nil] at hs
      exact ih (ho.serve _) hs
    | completeAll =>
      have hs := h.serve ho .completeAll nofun
      rw [Request.owners, Request.owners, List.append_nil] at hs
      exact ih (ho.serve _) hs

end Ledger

theorem Request.number_append (n : Nat) (before after : List (Request τ)) :
    number n (before ++ after) = number n before ++ number (n + (owners before).length) after := by
  induction before generalizing n with
  | nil => rfl
  | cons r rest ih =>
    cases r with
    | enqueue actor task =>
      rw [List.cons_append, number, number, ih, owners, List.length_cons, List.cons_append,
        Nat.add_right_comm, Nat.add_assoc]
    | tick => rw [List.cons_append, number, number, ih, owners, List.cons_append]
    | completeAll => rw [List.cons_append, number, number, ih, owners, List.cons_append]

namespace Ledger

variable {owners : List String} {gap : Option String} {log : List (Nat × Service)}
  {q : Queues (Numbered τ)}

omit [Task τ κ]

theorem length_pending (h : Ledger owners none (Queues.tasksIn q.lanes) log) (actor : String) :
    q.pending actor = (List.range owners.length).countP
      fun i => owners[i]? = some actor ∧ history log i = [] := by
  rw [Queues.pending_eq]
  have hf : (List.range owners.length).filter
      (fun i => owners[i]? = some actor ∧ history log i = []) =
      (unended owners log actor).filter fun i => history log i = [] := by
    rw [unended, List.filter_filter]
    apply List.filter_congr
    intro i _
    rw [← Bool.decide_and]
    apply decide_eq_decide.mpr
    constructor
    · rintro ⟨ho, hh⟩
      refine ⟨hh, ho, ?_⟩
      rw [hh]
      rfl
    · rintro ⟨hh, ho, -⟩
      exact ⟨ho, hh⟩
  rw [List.countP_eq_length_filter, hf]
  cases hb : Queues.tasksIn q.lanes actor with
  | nil =>
    have hs := h.serials actor
    rw [hb] at hs
    rw [← hs]
    rfl
  | cons task rest =>
    have hu := h.active actor task rest hb (Option.some_ne_none actor)
    have hne : history log task.serial ≠ [] := by
      obtain ⟨n, hn⟩ := hu
      rw [hn]
      exact List.cons_ne_nil _ _
    rw [h.unended_eq hb, List.filter_cons_of_neg (by rw [decide_eq_true_eq]; exact hne),
      List.filter_eq_self.mpr]
    · rw [List.length_map, List.tail_cons]
    · intro i hi
      obtain ⟨t, ht, rfl⟩ := List.mem_map.mp hi
      exact decide_eq_true (h.waiting actor task rest hb t ht)

theorem isBusy_iff (h : Ledger owners gap (Queues.tasksIn q.lanes) log) (actor : String) :
    q.isBusy actor = true ↔
      ∃ i, owners[i]? = some actor ∧ Service.ended (history log i) = false := by
  rw [Queues.isBusy_eq, ne_eq, ← List.map_eq_nil_iff (f := Numbered.serial), h.serials,
    ← List.isEmpty_iff, Bool.not_eq_true, List.isEmpty_eq_false_iff_exists_mem]
  exact exists_congr fun i => mem_unended

theorem perm_unended (ho : Queues.Ordered q.lanes)
    (h : Ledger owners gap (Queues.tasksIn q.lanes) log) :
    ((q.lanes.map Prod.fst).flatMap (unended owners log)).Perm
      ((List.range owners.length).filter fun i => Service.ended (history log i) = false) := by
  rw [List.perm_ext_iff_of_nodup]
  · intro i
    rw [List.mem_flatMap, List.mem_filter, List.mem_range, decide_eq_true_eq]
    constructor
    · rintro ⟨actor, -, hm⟩
      obtain ⟨ha, he⟩ := mem_unended.mp hm
      exact ⟨(List.getElem?_eq_some_iff.mp ha).1, he⟩
    · rintro ⟨hi, he⟩
      have hm := mem_unended.mpr ⟨List.getElem?_eq_getElem hi, he⟩
      refine ⟨owners[i], ?_, hm⟩
      by_contra hn
      rw [← h.serials, Queues.tasksIn_eq_nil hn] at hm
      cases hm
  · rw [List.nodup_flatMap]
    constructor
    · intro actor _
      exact nodup_unended owners log actor
    · apply ho.imp
      intro a b hab i hia hib
      have he := (mem_unended.mp hia).1.symm.trans (mem_unended.mp hib).1
      exact ne_of_lt hab (Option.some.inj he)
  · exact List.nodup_range.filter _

theorem size_eq (ho : Queues.Ordered q.lanes)
    (h : Ledger owners gap (Queues.tasksIn q.lanes) log) :
    q.size = (List.range owners.length).countP
      fun i => Service.ended (history log i) = false := by
  rw [List.countP_eq_length_filter, ← (h.perm_unended ho).length_eq, Queues.size,
    List.flatMap_map, List.length_flatMap, List.length_flatMap]
  congr 1
  apply List.map_congr_left
  rintro ⟨name, lane⟩ hm
  rw [← h.serials, Queues.mem_tasksIn ho hm, List.length_map]

end Ledger

namespace Queues

section Map

variable {τ' : Type} (f : τ → τ') (q : Queues τ)

omit [Task τ κ]

theorem size_map : (q.map f).size = q.size := by
  simp only [size, Queues.map, mapLanes, List.flatMap_map, List.length_flatMap, Prod.map_snd,
    Lane.map, List.length_cons, List.length_map]

theorem pending_map (actor : String) : (q.map f).pending actor = q.pending actor := by
  rw [pending_eq, pending_eq, Queues.map, tasksIn_mapLanes, ← List.map_tail, List.length_map]

theorem isBusy_map (actor : String) : (q.map f).isBusy actor = q.isBusy actor := by
  rw [Bool.eq_iff_iff, isBusy_eq, isBusy_eq, Queues.map, tasksIn_mapLanes, ne_eq,
    List.map_eq_nil_iff]

theorem isIdle_iff : q.isIdle = true ↔ q.size = 0 := by
  obtain ⟨lanes⟩ := q
  cases lanes with
  | nil => exact iff_of_true rfl rfl
  | cons e r => exact iff_of_false nofun nofun

end Map

theorem watched_ledger (ctx : κ) (requests : List (Request τ)) :
    Ordered (watched ctx requests).1.lanes ∧
      Ledger (Request.owners requests) none (tasksIn (watched ctx requests).1.lanes)
        (watched ctx requests).2.log :=
  Ledger.run (s := (.empty, ⟨ctx, []⟩)) .nil Ledger.empty requests

theorem watched_completeAll (ctx : κ) (requests : List (Request τ)) :
    watched ctx (requests ++ [.completeAll]) = serve (watched ctx requests) .completeAll := by
  rw [watched, Request.number_append, run_append]
  rfl

/-- Every task takes its course, tasks of one actor in turn, and the queues account for them. -/
structure Accounts (q : Queues τ) (owners : List String) (log : List (Nat × Service)) : Prop where
  lifecycle : ∀ i < owners.length, Service.Lifecycle (history log i)
  untouched : ∀ i, owners.length ≤ i → history log i = []
  inTurn : InTurn owners log
  size : q.size + (List.range owners.length).countP (fun i => Service.ended (history log i)) =
    owners.length
  pending : ∀ actor, q.pending actor = (List.range owners.length).countP
    fun i => owners[i]? = some actor ∧ history log i = []
  busy : ∀ actor, q.isBusy actor = true ↔
    ∃ i, owners[i]? = some actor ∧ Service.ended (history log i) = false
  idle : q.isIdle = true ↔ q.size = 0

theorem accounts_run (ctx : κ) (requests : List (Request τ)) :
    Accounts (run ctx requests).1 (Request.owners requests) (watched ctx requests).2.log := by
  obtain ⟨ho, h⟩ := watched_ledger ctx requests
  rw [← map_watched, Prod.map_fst]
  constructor
  case lifecycle =>
    intro i _
    exact h.lifecycle i
  case untouched => exact h.untouched
  case inTurn => exact h.inTurn
  case size =>
    rw [size_map, h.size_eq ho]
    have hl := List.length_eq_countP_add_countP
      (fun i => decide (Service.ended (history (watched ctx requests).2.log i) = false))
      (l := List.range (Request.owners requests).length)
    rw [List.length_range] at hl
    refine Eq.trans ?_ hl.symm
    congr 1
    apply List.countP_congr
    intro i _
    simp only [decide_eq_true_eq, Bool.not_eq_false]
  case pending =>
    intro actor
    rw [pending_map]
    exact h.length_pending actor
  case busy =>
    intro actor
    rw [isBusy_map]
    exact h.isBusy_iff actor
  case idle => exact isIdle_iff _

/-- The accounts are right whatever is asked of the queues, and to complete everything ends every
task asked for so far. -/
theorem run_accounted (ctx : κ) (requests : List (Request τ)) :
    (watched ctx requests).map (Queues.map Numbered.task) Logged.ctx = run ctx requests ∧
      Accounts (run ctx requests).1 (Request.owners requests) (watched ctx requests).2.log ∧
      (∀ i < (Request.owners requests).length,
        Service.ended (history (watched ctx (requests ++ [.completeAll])).2.log i) = true) ∧
      watched ctx (requests ++ [.completeAll, .completeAll]) =
        watched ctx (requests ++ [.completeAll]) := by
  refine ⟨map_watched ctx requests, accounts_run ctx requests, ?_, ?_⟩
  · obtain ⟨ho, h⟩ := watched_ledger ctx requests
    have hd := h.advances (advances_completeAll ho (watched ctx requests).2)
    intro i hi
    by_contra hn
    have hm := mem_unended.mpr ⟨List.getElem?_eq_getElem hi, Bool.eq_false_iff.mpr hn⟩
    have hs : unended (Request.owners requests) (serve (watched ctx requests) .completeAll).2.log
        (Request.owners requests)[i] = [] := (hd.serials _).symm
    rw [watched_completeAll, hs] at hm
    cases hm
  · rw [← List.singleton_append, ← List.append_assoc, watched_completeAll,
      watched_completeAll]
    rfl

end Queues

end Dialogue
