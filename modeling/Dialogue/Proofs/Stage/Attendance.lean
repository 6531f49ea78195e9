import Dialogue.Proofs.Stage.Lineup
namespace Dialogue

namespace Act

variable {act act' : Act} {lineup : List String} {id : String}

/-- Whether its actor is on stage once an act is over that has started; it needs the actor. -/
def concluding (act : Act) (present : Bool) : Option Bool :=
  match act, present with
  | _, false => none
  | .despawn .., true => some false
  | _, true => some true

/-- Whether its actor is on stage once an act that has not started is over; one who comes must not
be there. -/
def following (act : Act) (present : Bool) : Option Bool :=
  match act with
  | .spawn .. => if present then none else some true
  | _ => act.concluding present

theorem mem_vacates_iff : id ∈ act.vacates lineup ↔ id ∈ lineup ∧ (act.actor = id → ¬ act.Exits) := by
  cases act with
  | despawn actor exit tweens width =>
    rw [vacates, List.mem_filter, bne_iff_ne]
    exact and_congr_right fun _ => ⟨fun hn he => absurd he.symm hn, fun hn he => hn he.symm trivial⟩
  | spawn | gesture | expression => simp [vacates, Exits]

theorem mem_seats_iff :
    id ∈ act.seats lineup ↔ id ∈ lineup ∨ id = act.actor ∧ act.entrance?.isSome = true := by
  rw [seats]
  cases act.entrance? with
  | none => simp
  | some entrance =>
    simp [List.mem_insertIdx (Board.slot_le lineup.length entrance), or_comm]

theorem nodup_vacates (h : lineup.Nodup) (act : Act) : (act.vacates lineup).Nodup := by
  cases act with
  | despawn => exact h.filter _
  | spawn | gesture | expression => exact h

theorem nodup_seats (h : lineup.Nodup) (ha : act.entrance?.isSome = true → act.actor ∉ lineup) :
    (act.seats lineup).Nodup := by
  rw [seats]
  cases he : act.entrance? with
  | none => exact h
  | some entrance =>
    have hp := List.perm_insertIdx act.actor lineup (Board.slot_le lineup.length entrance)
    rw [hp.nodup_iff, List.nodup_cons]
    exact ⟨ha (by rw [he]; rfl), h⟩

theorem concluding_congr (he : act'.Exits ↔ act.Exits) (present : Bool) :
    act'.concluding present = act.concluding present := by
  cases present with
  | false => rfl
  | true =>
    cases act with
    | despawn =>
      cases act' with
      | despawn => rfl
      | spawn | gesture | expression => exact (he.mpr trivial).elim
    | spawn | gesture | expression =>
      cases act' with
      | despawn => exact (he.mp trivial).elim
      | spawn | gesture | expression => rfl

theorem mem_of_concluding {goal : Bool}
    (h : act.concluding (decide (id ∈ lineup)) = some goal) : id ∈ lineup := by
  by_contra hn
  rw [decide_eq_false hn] at h
  cases h

theorem concluding_vacates {goal : Bool}
    (h : act.concluding (decide (act.actor ∈ lineup)) = some goal) :
    decide (act.actor ∈ act.vacates lineup) = goal := by
  have hm := mem_of_concluding h
  rw [decide_eq_true hm] at h
  cases act with
  | despawn actor exit tweens width =>
    cases h
    apply decide_eq_false
    rw [mem_vacates_iff]
    exact fun hv => hv.2 rfl trivial
  | spawn | gesture | expression =>
    cases h
    exact decide_eq_true hm

theorem concluding_start {goal : Bool} (b : Board)
    (h : act.following (decide (act.actor ∈ lineup)) = some goal) :
    (act.start b).1.concluding (decide (act.actor ∈ act.seats lineup)) = some goal := by
  rw [concluding_congr (act.exits_start b)]
  cases act with
  | spawn actor image entrance tween =>
    have hm : actor ∈ (Act.spawn actor image entrance tween).seats lineup :=
      mem_seats_iff.mpr (.inr ⟨rfl, rfl⟩)
    have hg : (if decide (actor ∈ lineup) then none else some true) = some goal := h
    split at hg
    · cases hg
    · rw [← hg]
      exact congrArg (Act.concluding _) (decide_eq_true hm)
  | despawn | gesture | expression => exact h

theorem not_mem_of_following {goal : Bool}
    (h : act.following (decide (id ∈ lineup)) = some goal) (he : act.entrance?.isSome = true) :
    id ∉ lineup := by
  cases act with
  | spawn =>
    intro hm
    rw [following, if_pos (decide_eq_true hm)] at h
    cases h
  | despawn | gesture | expression => cases he

theorem isSome_start (act : Act) (b : Board) : (act.start b).1.tween?.isSome = true := by
  cases act <;> rfl

theorem isSome_poll {b b' : Board} (h : act.tween?.isSome = true)
    (hp : act.poll b = (.pending, act', b')) : act'.tween?.isSome = true := by
  obtain ⟨id, hid⟩ := Option.isSome_iff_exists.mp h
  rw [poll, hid] at hp
  by_cases hlt : b.progress id < 1
  · simp only [if_pos hlt] at hp
    cases hp
    exact h
  · simp only [if_neg hlt] at hp
    rcases act.concludes_cases with hc | ⟨actor, tween, rfl⟩ | ⟨actor, exit, tweens, width, rfl⟩
    · rw [hc.conclude_eq] at hp
      cases hp
    · cases hp
      rfl
    · cases hp

end Act

/-- Whether an actor is on stage once acts that have not started are over, one after the other. -/
def rehearse (acts : List Act) (present : Bool) : Option Bool :=
  acts.foldlM (fun present act => act.following present) present

/-- Whether an actor is on stage once all unfinished acts are over, of which the first has started. -/
def replay : List Act → Bool → Option Bool
  | [], present => some present
  | act :: waiting, present => (act.concluding present).bind (rehearse waiting)

theorem rehearse_cons (act : Act) (waiting : List Act) (present : Bool) :
    rehearse (act :: waiting) present = (act.following present).bind (rehearse waiting) :=
  rfl

theorem rehearse_concat (acts : List Act) (act : Act) (present : Bool) :
    rehearse (acts ++ [act]) present = (rehearse acts present).bind act.following := by
  rw [rehearse, List.foldlM_append]
  cases h : acts.foldlM (fun present act => Act.following act present) present with
  | none => simp [rehearse, h]
  | some goal => simp [rehearse, h]

theorem replay_concat {acts : List Act} (h : acts ≠ []) (act : Act) (present : Bool) :
    replay (acts ++ [act]) present = (replay acts present).bind act.following := by
  cases acts with
  | nil => exact absurd rfl h
  | cons first waiting =>
    rw [List.cons_append, replay, replay, Option.bind_assoc]
    congr 1
    funext goal
    exact rehearse_concat waiting act goal

/-- Each actor is there once at most, and for good once all acts are over just if the roster says
so. -/
structure Attendance (roster : List String) (book : String → List Act) (lineup : List String) :
    Prop where
  nodup : lineup.Nodup
  own : ∀ id, ∀ act ∈ book id, act.actor = id
  started : ∀ id act rest, book id = act :: rest → act.tween?.isSome = true
  replay : ∀ id, replay (book id) (decide (id ∈ lineup)) = some (decide (id ∈ roster))

namespace Attendance

variable {roster roster' lineup lineup' : List String} {book : String → List Act} {actor : String}
  {acts : List Act}

theorem empty : Attendance [] (fun _ => []) [] where
  nodup := .nil
  own := nofun
  started := nofun
  replay _ := rfl

theorem revise (h : Attendance roster book lineup) (hn : lineup'.Nodup)
    (ho : ∀ act ∈ acts, act.actor = actor)
    (hs : ∀ act rest, acts = act :: rest → act.tween?.isSome = true)
    (hr : Dialogue.replay acts (decide (actor ∈ lineup')) = some (decide (actor ∈ roster')))
    (hl : ∀ id, id ≠ actor → (id ∈ lineup' ↔ id ∈ lineup))
    (hm : ∀ id, id ≠ actor → (id ∈ roster' ↔ id ∈ roster)) :
    Attendance roster' (Function.update book actor acts) lineup' where
  nodup := hn
  own id := by
    by_cases hid : id = actor
    · rw [hid, Function.update_self]
      exact ho
    · rw [Function.update_of_ne hid]
      exact h.own id
  started id := by
    by_cases hid : id = actor
    · rw [hid, Function.update_self]
      exact hs
    · rw [Function.update_of_ne hid]
      exact h.started id
  replay id := by
    by_cases hid : id = actor
    · rw [hid, Function.update_self]
      exact hr
    · rw [Function.update_of_ne hid, decide_eq_decide.mpr (hl id hid),
        decide_eq_decide.mpr (hm id hid)]
      exact h.replay id

theorem head (h : Attendance roster book lineup) {act : Act} {rest : List Act}
    (hb : book actor = act :: rest) : act.actor = actor ∧
      ∃ goal, act.concluding (decide (act.actor ∈ lineup)) = some goal ∧
        rehearse rest goal = some (decide (act.actor ∈ roster)) := by
  have ha : act.actor = actor := h.own actor act (hb ▸ List.mem_cons_self)
  have hr := h.replay actor
  rw [hb, Dialogue.replay, Option.bind_eq_some_iff] at hr
  rw [ha]
  exact ⟨rfl, hr⟩

theorem mem_lineup (h : Attendance roster book lineup) {act : Act} {rest : List Act}
    (hb : book actor = act :: rest) : act.actor ∈ lineup := by
  obtain ⟨-, goal, hc, -⟩ := h.head hb
  exact Act.mem_of_concluding hc

theorem own_rest (h : Attendance roster book lineup) {act : Act} {rest : List Act}
    (hb : book actor = act :: rest) : ∀ other ∈ rest, other.actor = actor :=
  fun other hm => h.own actor other (hb ▸ List.mem_cons_of_mem act hm)

theorem waits (h : Attendance roster book lineup) {act act' : Act} {rest : List Act}
    (hb : book actor = act :: rest) (ha : act'.actor = act.actor) (he : act'.Exits ↔ act.Exits)
    (hs : act'.tween?.isSome = true) :
    Attendance roster (Function.update book actor (act' :: rest)) lineup := by
  have hr := h.replay actor
  rw [hb] at hr
  apply h.revise h.nodup
  case ho =>
    rw [List.forall_mem_cons]
    exact ⟨ha.trans (h.head hb).1, h.own_rest hb⟩
  case hs =>
    intro first others hf
    obtain ⟨rfl, -⟩ := List.cons.inj hf
    exact hs
  case hr =>
    rw [Dialogue.replay, Act.concluding_congr he]
    exact hr
  case hl => exact fun _ _ => Iff.rfl
  case hm => exact fun _ _ => Iff.rfl

theorem ends (h : Attendance roster book lineup) {act : Act} (hb : book actor = [act]) :
    Attendance roster (Function.update book actor []) (act.vacates lineup) := by
  obtain ⟨rfl, goal, hc, hg⟩ := h.head hb
  apply h.revise (Act.nodup_vacates h.nodup act)
  case ho => exact nofun
  case hs => exact nofun
  case hr =>
    rw [Act.concluding_vacates hc]
    exact hg
  case hl =>
    intro id hid
    rw [Act.mem_vacates_iff]
    exact and_iff_left fun he => absurd he.symm hid
  case hm => exact fun _ _ => Iff.rfl

theorem follows (h : Attendance roster book lineup) {act next : Act} {rest : List Act}
    (hb : book actor = act :: next :: rest) :
    ∃ goal, next.following (decide (next.actor ∈ act.vacates lineup)) = some goal ∧
      rehearse rest goal = some (decide (next.actor ∈ roster)) := by
  obtain ⟨ha, goal, hc, hg⟩ := h.head hb
  have hn : next.actor = act.actor :=
    (h.own_rest hb next List.mem_cons_self).trans ha.symm
  rw [hn, Act.concluding_vacates hc]
  rw [rehearse_cons, Option.bind_eq_some_iff] at hg
  exact hg

theorem passes (h : Attendance roster book lineup) {act next : Act} {rest : List Act}
    (hb : book actor = act :: next :: rest) (b : Board) :
    Attendance roster (Function.update book actor ((next.start b).1 :: rest))
      (next.seats (act.vacates lineup)) := by
  obtain ⟨goal, hf, hg⟩ := h.follows hb
  have ha := (h.head hb).1
  have hn : next.actor = actor := h.own_rest hb next List.mem_cons_self
  apply h.revise
  case hn =>
    apply Act.nodup_seats (Act.nodup_vacates h.nodup act)
    exact Act.not_mem_of_following hf
  case ho =>
    rw [List.forall_mem_cons]
    exact ⟨(next.actor_start b).trans hn,
      fun other hm => h.own_rest hb other (List.mem_cons_of_mem next hm)⟩
  case hs =>
    intro first others hc
    obtain ⟨rfl, -⟩ := List.cons.inj hc
    exact next.isSome_start b
  case hr =>
    subst hn
    rw [Dialogue.replay, Act.concluding_start b hf]
    exact hg
  case hl =>
    intro id hid
    rw [Act.mem_seats_iff, hn, Act.mem_vacates_iff, ha]
    constructor
    · rintro (hv | hv)
      · exact hv.1
      · exact absurd hv.1 hid
    · intro hv
      exact .inl ⟨hv, fun he => absurd he.symm hid⟩
  case hm => exact fun _ _ => Iff.rfl

theorem joins (h : Attendance roster book lineup) {act : Act} (hb : book act.actor ≠ [])
    (hf : act.following (decide (act.actor ∈ roster)) = some (decide (act.actor ∈ roster')))
    (hm : ∀ id, id ≠ act.actor → (id ∈ roster' ↔ id ∈ roster)) :
    Attendance roster' (Function.update book act.actor (book act.actor ++ [act])) lineup := by
  apply h.revise h.nodup
  case ho =>
    rw [List.forall_mem_append, List.forall_mem_singleton]
    exact ⟨h.own act.actor, rfl⟩
  case hs =>
    intro first others he
    cases hf : book act.actor with
    | nil => exact absurd hf hb
    | cons other rest =>
      rw [hf, List.cons_append] at he
      obtain ⟨rfl, -⟩ := List.cons.inj he
      exact h.started act.actor other rest hf
  case hr =>
    rw [replay_concat hb, h.replay act.actor]
    exact hf
  case hl => exact fun _ _ => Iff.rfl
  case hm => exact hm

theorem begins (h : Attendance roster book lineup) {act : Act} (hb : book act.actor = [])
    (hf : act.following (decide (act.actor ∈ roster)) = some (decide (act.actor ∈ roster')))
    (hm : ∀ id, id ≠ act.actor → (id ∈ roster' ↔ id ∈ roster)) (b : Board) :
    act.following (decide (act.actor ∈ lineup)) = some (decide (act.actor ∈ roster')) ∧
      Attendance roster' (Function.update book act.actor [(act.start b).1]) (act.seats lineup) := by
  have hr := h.replay act.actor
  rw [hb] at hr
  rw [← Option.some.inj hr] at hf
  refine ⟨hf, ?_⟩
  apply h.revise
  case hn => exact Act.nodup_seats h.nodup (Act.not_mem_of_following hf)
  case ho =>
    rw [List.forall_mem_singleton]
    exact act.actor_start b
  case hs =>
    intro first others hc
    obtain ⟨rfl, -⟩ := List.cons.inj hc
    exact act.isSome_start b
  case hr =>
    rw [Dialogue.replay, Act.concluding_start b hf]
    rfl
  case hl =>
    intro id hid
    rw [Act.mem_seats_iff]
    exact or_iff_left fun he => hid he.1
  case hm => exact hm

end Attendance

end Dialogue
