import Dialogue.Proofs.Stage.Service
import Mathlib.Data.List.Nodup
import Mathlib.Data.List.Perm.Basic
namespace Dialogue

open Relation (ReflTransGen)

variable {τ κ : Type}

/-- No task starts before all earlier tasks of its actor have ended. -/
def InTurn (owners : List String) (log : List (Nat × Service)) : Prop :=
  ∀ before i after, log = before ++ (i, .started) :: after →
    ∀ j < i, owners[j]? = owners[i]? → Service.ended (history before j) = true

section InTurn

variable {owners : List String} {log : List (Nat × Service)} {i : Nat} {service : Service}

theorem InTurn.append (h : InTurn owners log)
    (hs : service = .started →
      ∀ j < i, owners[j]? = owners[i]? → Service.ended (history log j) = true) :
    InTurn owners (log ++ [(i, service)]) := by
  intro before j after he
  rcases List.eq_nil_or_concat after with rfl | ⟨after, last, rfl⟩
  · obtain ⟨rfl, hl⟩ := List.append_inj' he rfl
    cases hl
    exact hs rfl
  · rw [List.concat_eq_append, ← List.cons_append, ← List.append_assoc] at he
    exact h before j after (List.append_inj' he rfl).1

theorem history_ne_nil (h : (i, service) ∈ log) : history log i ≠ [] := by
  have hm : service ∈ history log i :=
    List.mem_map.mpr ⟨(i, service), List.mem_filter.mpr ⟨h, decide_eq_true rfl⟩, rfl⟩
  exact List.ne_nil_of_mem hm

theorem InTurn.owner (h : InTurn owners log)
    (hu : ∀ i, owners.length ≤ i → history log i = []) (owner : String) :
    InTurn (owners ++ [owner]) log := by
  intro before i after he j hj ho
  have hm : (i, Service.started) ∈ log := by
    rw [he]
    exact List.mem_append_right before List.mem_cons_self
  have hi : i < owners.length := by
    by_contra hn
    exact history_ne_nil hm (hu i (Nat.le_of_not_lt hn))
  rw [List.getElem?_append_left hi, List.getElem?_append_left (Nat.lt_trans hj hi)] at ho
  exact h before i after he j hj ho

end InTurn

/-- The tasks in line are the unended ones, and the first of each actor but the one at the gap is
under way. -/
structure Ledger (owners : List String) (gap : Option String)
    (book : String → List (Numbered τ)) (log : List (Nat × Service)) : Prop where
  serials : ∀ actor, (book actor).map Numbered.serial = unended owners log actor
  active : ∀ actor task rest, book actor = task :: rest → some actor ≠ gap →
    Service.Underway (history log task.serial)
  waiting : ∀ actor task rest, book actor = task :: rest →
    ∀ t ∈ rest, history log t.serial = []
  lifecycle : ∀ i, Service.Lifecycle (history log i)
  untouched : ∀ i, owners.length ≤ i → history log i = []
  inTurn : InTurn owners log

namespace Ledger

variable {owners : List String} {gap gap' : Option String} {book : String → List (Numbered τ)}
  {log : List (Nat × Service)} {actor : String} {task : Numbered τ} {rest : List (Numbered τ)}

theorem empty : Ledger [] none (fun _ => ([] : List (Numbered τ))) [] where
  serials _ := rfl
  active _ _ _ h := nomatch h
  waiting _ _ _ h := nomatch h
  lifecycle _ := .inl rfl
  untouched _ _ := rfl
  inTurn before _ _ h := by
    cases before <;> cases h

theorem owner (h : Ledger owners gap book log) {t : Numbered τ} (hm : t ∈ book actor) :
    owners[t.serial]? = some actor := by
  have hs : t.serial ∈ unended owners log actor := by
    rw [← h.serials actor]
    exact List.mem_map_of_mem hm
  exact (mem_unended.mp hs).1

theorem serial_ne_of_actor_ne (h : Ledger owners gap book log) {other : String}
    (hne : other ≠ actor) {t u : Numbered τ} (ht : t ∈ book actor) (hu : u ∈ book other) :
    u.serial ≠ t.serial := by
  intro he
  have ho := h.owner hu
  rw [he, h.owner ht] at ho
  exact hne (Option.some.inj ho).symm

theorem serial_ne_of_mem_rest (h : Ledger owners gap book log) (hb : book actor = task :: rest)
    {t : Numbered τ} (ht : t ∈ rest) : t.serial ≠ task.serial := by
  have hn := nodup_unended owners log actor
  rw [← h.serials actor, hb, List.map_cons, List.nodup_cons] at hn
  intro he
  exact hn.1 (he ▸ List.mem_map_of_mem ht)

theorem unended_eq (h : Ledger owners gap book log) (hb : book actor = task :: rest) :
    unended owners log actor = task.serial :: rest.map Numbered.serial := by
  have hs := h.serials actor
  rw [hb] at hs
  exact hs.symm

theorem note (h : Ledger owners gap book log) (hb : book actor = task :: rest)
    (service : Service) (tasks : List (Numbered τ))
    (hs : tasks.map Numbered.serial = unended owners (log ++ [(task.serial, service)]) actor)
    (ha : ∀ t r, tasks = t :: r → some actor ≠ gap' →
      Service.Underway (history (log ++ [(task.serial, service)]) t.serial))
    (hw : ∀ t r, tasks = t :: r → ∀ u ∈ r, u ∈ rest)
    (hl : Service.Lifecycle (history log task.serial ++ [service]))
    (hf : service = .started → ∀ j < task.serial, owners[j]? = some actor →
      Service.ended (history log j) = true)
    (hg : ∀ other ≠ actor, some other ≠ gap' → some other ≠ gap) :
    Ledger owners gap' (Function.update book actor tasks) (log ++ [(task.serial, service)]) := by
  have hm : task ∈ book actor := by
    rw [hb]
    exact List.mem_cons_self
  have ho := h.owner hm
  have hother : ∀ other, other ≠ actor → ∀ t ∈ book other,
      history (log ++ [(task.serial, service)]) t.serial = history log t.serial := by
    intro other hne t ht
    exact history_append_of_ne (h.serial_ne_of_actor_ne hne hm ht) _ _
  constructor
  case serials =>
    intro other
    by_cases hne : other = actor
    · subst hne
      rw [Function.update_self]
      exact hs
    · rw [Function.update_of_ne hne, unended_append_of_ne]
      · exact h.serials other
      · rw [ho]
        intro he
        exact hne (Option.some.inj he).symm
  case active =>
    intro other t r he hng
    by_cases hne : other = actor
    · subst hne
      rw [Function.update_self] at he
      exact ha t r he hng
    · rw [Function.update_of_ne hne] at he
      rw [hother other hne t (he ▸ List.mem_cons_self)]
      exact h.active other t r he (hg other hne hng)
  case waiting =>
    intro other t r he u hu
    by_cases hne : other = actor
    · subst hne
      rw [Function.update_self] at he
      have hu' := hw t r he u hu
      rw [history_append_of_ne (h.serial_ne_of_mem_rest hb hu')]
      exact h.waiting other task rest hb u hu'
    · rw [Function.update_of_ne hne] at he
      rw [hother other hne u (he ▸ List.mem_cons_of_mem t hu)]
      exact h.waiting other t r he u hu
  case lifecycle =>
    intro i
    by_cases hi : i = task.serial
    · subst hi
      rw [history_append_self]
      exact hl
    · rw [history_append_of_ne hi]
      exact h.lifecycle i
  case untouched =>
    intro i hi
    have hne : i ≠ task.serial := by
      have hlt := (List.getElem?_eq_some_iff.mp ho).1
      exact (Nat.lt_of_lt_of_le hlt hi).ne'
    rw [history_append_of_ne hne]
    exact h.untouched i hi
  case inTurn =>
    apply h.inTurn.append
    rw [ho]
    exact hf

theorem pending (h : Ledger owners none book log) (hb : book actor = task :: rest)
    {task' : Numbered τ} (ht : task'.serial = task.serial) :
    Ledger owners none (Function.update book actor (task' :: rest))
      (log ++ [(task.serial, .polled .pending)]) := by
  have hu := h.active actor task rest hb (Option.some_ne_none actor)
  apply h.note hb
  case hs =>
    rw [unended_open rfl, h.unended_eq hb, List.map_cons, ht]
  case ha =>
    intro t r he _
    obtain ⟨rfl, -⟩ := List.cons.inj he
    rw [ht, history_append_self]
    exact hu.pending
  case hw =>
    intro t r he u hu
    obtain ⟨-, rfl⟩ := List.cons.inj he
    exact hu
  case hl => exact .inr (.inl hu.pending)
  case hf =>
    intro hs
    cases hs
  case hg =>
    intro _ _ _ hn
    cases hn

theorem close (h : Ledger owners none book log) (hb : book actor = task :: rest)
    {last : Service} (hc : last.closes = true) :
    Ledger owners (some actor) (Function.update book actor rest)
      (log ++ [(task.serial, last)]) := by
  have hu := h.active actor task rest hb (Option.some_ne_none actor)
  apply h.note hb
  case hs => rw [unended_close (h.unended_eq hb) hc]
  case ha =>
    intro _ _ _ hn
    exact absurd rfl hn
  case hw =>
    intro t r he u hu
    rw [he]
    exact List.mem_cons_of_mem t hu
  case hl => exact .inr (.inr (hu.close hc))
  case hf =>
    rintro rfl
    cases hc
  case hg =>
    intro _ _ _ hn
    cases hn

theorem start (h : Ledger owners (some actor) book log) (hb : book actor = task :: rest)
    (ht : history log task.serial = []) (task' : Numbered τ) (hs : task'.serial = task.serial) :
    Ledger owners none (Function.update book actor (task' :: rest))
      (log ++ [(task.serial, .started)]) := by
  apply h.note hb
  case hs =>
    rw [unended_open rfl, h.unended_eq hb, List.map_cons, hs]
  case ha =>
    intro t r he _
    obtain ⟨rfl, -⟩ := List.cons.inj he
    rw [hs, history_append_self, ht]
    exact Service.underway_started
  case hw =>
    intro t r he u hu
    obtain ⟨-, rfl⟩ := List.cons.inj he
    exact hu
  case hl =>
    rw [ht]
    exact .inr (.inl Service.underway_started)
  case hf =>
    -- Tasks are in line by their numbers, so an unended task before this one would be first.
    intro _ j hj ho
    by_contra hn
    have hm := mem_unended.mpr ⟨ho, Bool.eq_false_iff.mpr hn⟩
    have hp := pairwise_unended owners log actor
    rw [h.unended_eq hb] at hm hp
    rcases List.mem_cons.mp hm with rfl | hm
    · exact Nat.lt_irrefl _ hj
    · exact Nat.lt_asymm hj ((List.pairwise_cons.mp hp).1 j hm)
  case hg =>
    intro other hne _ he
    exact hne (Option.some.inj he)

theorem fill (h : Ledger owners (some actor) book log) (hb : book actor = []) :
    Ledger owners none book log where
  serials := h.serials
  active other t r he _ := by
    apply h.active other t r he
    intro ho
    rw [Option.some.inj ho, hb] at he
    cases he
  waiting := h.waiting
  lifecycle := h.lifecycle
  untouched := h.untouched
  inTurn := h.inTurn

theorem join (h : Ledger owners none book log) (gap : Option String) (actor : String)
    {task : Numbered τ} (ht : task.serial = owners.length)
    (hg : book actor = [] → gap = some actor) :
    Ledger (owners ++ [actor]) gap (Function.update book actor (book actor ++ [task])) log := by
  have hu := h.untouched owners.length (Nat.le_refl _)
  constructor
  case serials =>
    intro other
    rw [unended_owner hu]
    by_cases hne : other = actor
    · subst hne
      rw [Function.update_self, if_pos rfl, List.map_append, h.serials, List.map_singleton, ht]
    · rw [Function.update_of_ne hne, if_neg (Ne.symm hne), List.append_nil]
      exact h.serials other
  case active =>
    intro other t r he hng
    by_cases hne : other = actor
    · subst hne
      rw [Function.update_self] at he
      cases hb : book other with
      | nil => exact absurd (hg hb).symm hng
      | cons first rest =>
        rw [hb, List.cons_append] at he
        obtain ⟨rfl, -⟩ := List.cons.inj he
        exact h.active other first rest hb (Option.some_ne_none other)
    · rw [Function.update_of_ne hne] at he
      exact h.active other t r he (Option.some_ne_none other)
  case waiting =>
    intro other t r he u hm
    by_cases hne : other = actor
    · subst hne
      rw [Function.update_self] at he
      cases hb : book other with
      | nil =>
        rw [hb, List.nil_append] at he
        obtain ⟨-, rfl⟩ := List.cons.inj he
        cases hm
      | cons first rest =>
        rw [hb, List.cons_append] at he
        obtain ⟨-, rfl⟩ := List.cons.inj he
        rcases List.mem_append.mp hm with hm | hm
        · exact h.waiting other first rest hb u hm
        · rw [List.mem_singleton.mp hm, ht]
          exact hu
    · rw [Function.update_of_ne hne] at he
      exact h.waiting other t r he u hm
  case lifecycle => exact h.lifecycle
  case untouched =>
    intro i hi
    rw [List.length_append] at hi
    exact h.untouched i (Nat.le_of_add_right_le hi)
  case inTurn => exact h.inTurn.owner h.untouched actor

end Ledger

end Dialogue
