import Dialogue.Proofs.Stage.Lineup
import Dialogue.Proofs.Stage.Timing
import Mathlib.Data.List.Forall2
import Mathlib.Data.List.Nodup
namespace Dialogue

section Lists

variable {α β : Type}

theorem insertIdx_eq_take_append (x : α) {l : List α} {i : Nat} (h : i ≤ l.length) :
    l.insertIdx i x = l.take i ++ x :: l.drop i := by
  induction l generalizing i with
  | nil =>
    obtain rfl : i = 0 := Nat.le_zero.mp h
    rfl
  | cons a l ih =>
    cases i with
    | zero => rfl
    | succ i =>
      rw [List.insertIdx_succ_cons, ih (Nat.le_of_succ_le_succ h), List.take_succ_cons,
        List.drop_succ_cons, List.cons_append]

theorem exists_mem_zip {γ : Type} {R : β → γ → Prop} {l : List β} {l' : List γ}
    (h : List.Forall₂ R l l') {marks : List α} {p : α × β} (hp : p ∈ marks.zip l) :
    ∃ c, (p.1, c) ∈ marks.zip l' ∧ R p.2 c := by
  induction h generalizing marks with
  | nil =>
    rw [List.zip_nil_right] at hp
    cases hp
  | @cons b c l l' hr _ ih =>
    cases marks with
    | nil => cases hp
    | cons k marks =>
      rw [List.zip_cons_cons] at hp ⊢
      cases hp with
      | head => exact ⟨c, List.mem_cons_self, hr⟩
      | tail _ hp =>
        obtain ⟨c, hm, hc⟩ := ih hp
        exact ⟨c, List.mem_cons_of_mem _ hm, hc⟩

end Lists

namespace Board

/-- What happens to a board: an act, however far it has come, is started, polled or finished, or
the timeline does something. -/
inductive Event where
  | start (act : Act)
  | poll (act : Act)
  | finish (act : Act)
  | time (operation : Timeline.Operation)

def obey (b : Board) : Event → Board
  | .start act => (act.start b).2
  | .poll act => (act.poll b).2.2
  | .finish act => (act.finish b).2
  | .time operation => { b with timeline := (b.timeline.obey operation).1 }

def follow (b : Board) (events : List Event) : Board :=
  events.foldl obey b

namespace Event

def actor? : Event → Option String
  | start act | poll act | finish act => some act.actor
  | time _ => none

def entrance? : Event → Option Entrance
  | start act => act.entrance?
  | _ => none

/-- The actor who is taken off the board: by the end of an exit that has started, or by finishing
one in any case. -/
def exits? (b : Board) : Event → Option String
  | poll (.despawn actor exit (some tweens) width) =>
    if ((Act.despawn actor exit (some tweens) width).poll b).1 = .done then some actor else none
  | finish (.despawn actor ..) => some actor
  | _ => none

end Event

theorem forall₂_modifyFirst (change : Figure → Figure) (id : String) (l : List Figure) :
    List.Forall₂ (fun f f' => f' = f ∨ f.id = id ∧ f' = change f) l (modifyFirst id change l) := by
  induction l with
  | nil => exact .nil
  | cons f r ih =>
    rw [modifyFirst]
    by_cases hf : f.id = id
    · rw [if_pos hf]
      exact .cons (.inr ⟨hf, rfl⟩) (List.forall₂_same.mpr fun _ _ => .inl rfl)
    · rw [if_neg hf]
      exact .cons (.inl rfl) ih

/-- Each figure is what it was, except that one actor may look different. -/
def Alters (actor? : Option String) : List Figure → List Figure → Prop :=
  List.Forall₂ fun f f' => f'.id = f.id ∧ (actor? ≠ some f.id → f' = f)

namespace Alters

variable {actor? : Option String} {actor : String} {l l' l'' : List Figure}

theorem refl (actor? : Option String) (l : List Figure) : Alters actor? l l := by
  apply List.forall₂_same.mpr
  intro f _
  exact ⟨rfl, fun _ => rfl⟩

theorem trans (h : Alters actor? l l') (h' : Alters actor? l' l'') : Alters actor? l l'' := by
  induction h generalizing l'' with
  | nil => exact h'
  | cons hf _ ih =>
    cases h' with
    | cons hf' h' =>
      refine .cons ⟨hf'.1.trans hf.1, fun hne => ?_⟩ (ih h')
      have he := hf.2 hne
      subst he
      exact hf'.2 hne

theorem modifyFirst (change : Figure → Figure) (hc : ∀ f, (change f).id = f.id) (id : String)
    (l : List Figure) : Alters (some id) l (modifyFirst id change l) := by
  apply (forall₂_modifyFirst change id l).imp
  intro f f' hf
  rcases hf with rfl | ⟨rfl, rfl⟩
  · exact ⟨rfl, fun _ => rfl⟩
  · exact ⟨hc f, fun hne => (hne rfl).elim⟩

theorem filter_eq (h : Alters (some actor) l l') :
    l'.filter (·.id != actor) = l.filter (·.id != actor) := by
  induction h with
  | nil => rfl
  | @cons f f' _ _ hf _ ih =>
    rw [List.filter_cons, List.filter_cons, ih, hf.1]
    by_cases he : f.id = actor
    · have hb : (f.id != actor) = false := by rw [he, bne_self_eq_false]
      rw [hb]
      rfl
    · rw [hf.2 fun ha => he (Option.some.inj ha).symm]

end Alters

theorem alters_apply (act : Act) (b : Board) (t : Float32) :
    Alters (some act.actor) b.figures (act.apply b t).figures := by
  rw [Act.apply_eq]
  exact .modifyFirst _ (act.id_shown b t) act.actor b.figures

theorem alters_start {act : Act} (h : act.entrance? = none) (b : Board) :
    Alters (some act.actor) b.figures (act.start b).2.figures := by
  have ha := alters_apply (act.prepare b).1 (act.prepare b).2 0
  rw [Act.actor_prepare] at ha
  refine Alters.trans ?_ ha
  cases act with
  | spawn actor image entrance tween => cases h
  | despawn actor exit tweens width => exact .refl _ _
  | gesture actor g tween secondHalf =>
    exact .modifyFirst (fun f => { f with motion := .zero, scale := 1 }) (fun _ => rfl) actor _
  | expression actor image tween => exact .refl _ _

theorem figures_start_spawn (actor image : String) (entrance : Entrance) (tween : Option Nat)
    (b : Board) :
    ∃ change : Figure → Figure, (∀ f, (change f).id = f.id ∧ (change f).image = f.image) ∧
      ((Act.spawn actor image entrance tween).start b).2.figures =
        modifyFirst actor change (b.figures.insertIdx (slot b.figures.length entrance)
          (.entering actor image (b.direction entrance))) := by
  refine ⟨_, ?_, rfl⟩
  intro f
  exact ⟨rfl, rfl⟩

theorem figures_conclude {act : Act} (h : ¬ act.Exits) (b : Board) :
    (act.conclude b).2.2.figures = b.figures := by
  rcases act.concludes_cases with hc | ⟨actor, tween, rfl⟩ | ⟨actor, exit, tweens, width, rfl⟩
  · rw [hc.conclude_eq]
  · rfl
  · exact absurd trivial h

theorem figures_poll (act : Act) (b : Board) :
    (Event.exits? b (.poll act) = none ∧
        Alters (some act.actor) b.figures (act.poll b).2.2.figures) ∨
      Event.exits? b (.poll act) = some act.actor ∧
        (act.poll b).2.2.figures = b.figures.filter (·.id != act.actor) := by
  cases ht : act.tween? with
  | none =>
    left
    have hp : act.poll b = (.done, act, b) := by rw [Act.poll, ht]
    rw [hp]
    refine ⟨?_, .refl _ _⟩
    cases act with
    | despawn actor exit tweens width =>
      cases tweens with
      | none => rfl
      | some ids => cases ht
    | _ => rfl
  | some id =>
    have ha := alters_apply act b (b.progress id)
    by_cases hlt : b.progress id < 1
    · left
      have hp : act.poll b = (.pending, act, act.apply b (b.progress id)) := by
        simp only [Act.poll, ht, if_pos hlt]
      rw [hp]
      refine ⟨?_, ha⟩
      cases act with
      | despawn actor exit tweens width =>
        cases tweens with
        | none => rfl
        | some ids =>
          have hne : Status.pending ≠ Status.done := by decide
          rw [Event.exits?, hp, if_neg hne]
      | _ => rfl
    · have hp : act.poll b = act.conclude (act.apply b (b.progress id)) := by
        simp only [Act.poll, ht, if_neg hlt]
      rw [hp]
      by_cases hx : act.Exits
      · right
        cases act with
        | despawn actor exit tweens width =>
          cases tweens with
          | none => cases ht
          | some ids =>
            rw [Event.exits?, hp]
            exact ⟨rfl, ha.filter_eq⟩
        | _ => exact hx.elim
      · left
        rw [figures_conclude hx]
        refine ⟨?_, ha⟩
        cases act with
        | despawn actor exit tweens width => exact absurd trivial hx
        | _ => rfl

theorem figures_finish (act : Act) (b : Board) :
    (Event.exits? b (.finish act) = none ∧
        Alters (some act.actor) b.figures (act.finish b).2.figures) ∨
      Event.exits? b (.finish act) = some act.actor ∧
        (act.finish b).2.figures = b.figures.filter (·.id != act.actor) := by
  have hn := act.actor_hasten b
  have he := act.exits_hasten b
  have ha := alters_apply (act.hasten b).1 (act.hasten b).2 1
  rw [hn, Act.figures_hasten] at ha
  rw [Act.finish]
  rcases hh : act.hasten b with ⟨act', b'⟩
  rw [hh] at hn he ha
  by_cases hx : act.Exits
  · right
    cases act with
    | despawn actor exit tweens width =>
      cases act' with
      | despawn actor' exit' tweens' width' =>
        obtain rfl : actor' = actor := hn
        exact ⟨rfl, ha.filter_eq⟩
      | _ => exact (he.mpr hx).elim
    | _ => exact hx.elim
  · left
    have hx' := mt he.mp hx
    refine ⟨?_, ?_⟩
    · cases act with
      | despawn actor exit tweens width => exact absurd trivial hx
      | _ => rfl
    · cases act' with
      | despawn actor exit tweens width => exact absurd trivial hx'
      | _ => exact ha

theorem figures_obey {e : Event} (h : e.entrance? = none) (b : Board) :
    (e.exits? b = none ∧ Alters e.actor? b.figures (b.obey e).figures) ∨
      ∃ id, e.exits? b = some id ∧ (b.obey e).figures = b.figures.filter (·.id != id) := by
  cases e with
  | start act => exact .inl ⟨rfl, alters_start h b⟩
  | poll act => exact (figures_poll act b).imp_right fun hp => ⟨_, hp⟩
  | finish act => exact (figures_finish act b).imp_right fun hf => ⟨_, hf⟩
  | time operation => exact .inl ⟨rfl, .refl _ _⟩

/-- A board whose figures bear numbers, in the order in which they came. -/
structure Marked where
  board : Board
  /-- The numbers of the figures from left to right. -/
  marks : List Nat
  /-- The number of the figure that comes next. -/
  next : Nat

namespace Marked

def ofBoard (b : Board) : Marked :=
  ⟨b, List.range b.figures.length, b.figures.length⟩

def figures (m : Marked) : List (Nat × Figure) :=
  m.marks.zip m.board.figures

/-- The numbered figures, once those who come have come and those who go have gone. -/
def arranged (m : Marked) (e : Event) : List (Nat × Figure) :=
  match e with
  | .start (.spawn actor image entrance _) =>
    m.figures.insertIdx (slot m.figures.length entrance)
      (m.next, .entering actor image (m.board.direction entrance))
  | _ =>
    match e.exits? m.board with
    | some id => m.figures.filter (·.2.id != id)
    | none => m.figures

/-- A figure that comes takes the next number, and one that goes takes its number along. -/
def obey (m : Marked) (e : Event) : Marked where
  board := m.board.obey e
  marks := (m.arranged e).map Prod.fst
  next := if e.entrance?.isSome then m.next + 1 else m.next

def follow (m : Marked) (events : List Event) : Marked :=
  events.foldl obey m

structure Sound (m : Marked) : Prop where
  aligned : m.marks.length = m.board.figures.length
  nodup : m.marks.Nodup
  given : ∀ k ∈ m.marks, k < m.next

/-- Those of the figures that were there before stand in the order in which they stood. -/
structure Later (m n : Marked) : Prop where
  next : m.next ≤ n.next
  marks : (n.marks.filter (· < m.next)).Sublist m.marks

variable {m n o : Marked} {e : Event}

theorem board_follow (m : Marked) (events : List Event) :
    (m.follow events).board = m.board.follow events := by
  induction events generalizing m with
  | nil => rfl
  | cons e events ih => exact ih (m.obey e)

theorem sound_ofBoard (b : Board) : (ofBoard b).Sound where
  aligned := List.length_range
  nodup := List.nodup_range
  given _ hk := List.mem_range.mp hk

theorem arranged_of_none (h : e.entrance? = none) (m : Marked) :
    m.arranged e = match e.exits? m.board with
      | some id => m.figures.filter (·.2.id != id)
      | none => m.figures := by
  cases e with
  | start act =>
    cases act with
    | spawn actor image entrance tween => cases h
    | _ => rfl
  | _ => rfl

theorem exists_spawn (h : e.entrance? ≠ none) :
    ∃ actor image entrance tween, e = .start (.spawn actor image entrance tween) := by
  cases e with
  | start act =>
    cases act with
    | spawn actor image entrance tween => exact ⟨actor, image, entrance, tween, rfl⟩
    | _ => exact (h rfl).elim
  | _ => exact (h rfl).elim

namespace Sound

theorem map_fst (h : m.Sound) : m.figures.map Prod.fst = m.marks :=
  List.map_fst_zip (Nat.le_of_eq h.aligned)

theorem map_snd (h : m.Sound) : m.figures.map Prod.snd = m.board.figures :=
  List.map_snd_zip (Nat.le_of_eq h.aligned.symm)

theorem length_figures (h : m.Sound) : m.figures.length = m.board.figures.length := by
  rw [← h.map_snd, List.length_map]

theorem figures_spawn (h : m.Sound) (actor image : String) (entrance : Entrance)
    (tween : Option Nat) :
    ∃ change : Figure → Figure, (∀ f, (change f).id = f.id ∧ (change f).image = f.image) ∧
      (m.board.obey (.start (.spawn actor image entrance tween))).figures = modifyFirst actor change
        ((m.arranged (.start (.spawn actor image entrance tween))).map Prod.snd) := by
  rw [arranged, List.map_insertIdx, h.map_snd, h.length_figures]
  exact figures_start_spawn actor image entrance tween m.board

/-- What an event makes of the board is to arrange the figures, and to alter its actor. -/
theorem alters_arranged (h : m.Sound) (e : Event) :
    Alters e.actor? ((m.arranged e).map Prod.snd) (m.board.obey e).figures := by
  by_cases he : e.entrance? = none
  · rw [arranged_of_none he]
    rcases figures_obey he m.board with ⟨hx, ha⟩ | ⟨id, hx, hf⟩
    · rw [hx]
      dsimp only
      rw [h.map_snd]
      exact ha
    · rw [hx, hf]
      dsimp only
      rw [← h.map_snd, List.filter_map]
      exact .refl _ _
  · obtain ⟨actor, image, entrance, tween, rfl⟩ := exists_spawn he
    obtain ⟨change, hc, hf⟩ := h.figures_spawn actor image entrance tween
    rw [hf]
    exact .modifyFirst change (fun f => (hc f).1) actor _

theorem sublist_arranged (h : m.Sound) (he : e.entrance? = none) :
    ((m.arranged e).map Prod.fst).Sublist m.marks := by
  rw [← h.map_fst, arranged_of_none he]
  cases e.exits? m.board with
  | none => exact .refl _
  | some id => exact List.filter_sublist.map _

theorem marks_spawn (h : m.Sound) (actor image : String) (entrance : Entrance)
    (tween : Option Nat) :
    (m.obey (.start (.spawn actor image entrance tween))).marks =
      m.marks.insertIdx (slot m.board.figures.length entrance) m.next := by
  rw [Marked.obey, arranged, List.map_insertIdx, h.map_fst, h.length_figures]

theorem slot_le (h : m.Sound) (entrance : Entrance) :
    slot m.board.figures.length entrance ≤ m.marks.length := by
  rw [h.aligned]
  exact Board.slot_le _ _

theorem obey (h : m.Sound) (e : Event) : (m.obey e).Sound := by
  have hl := (h.alters_arranged e).length_eq
  rw [List.length_map] at hl
  by_cases he : e.entrance? = none
  · have hs := h.sublist_arranged he
    refine ⟨(List.length_map _).trans hl, hs.nodup h.nodup, ?_⟩
    intro k hk
    rw [Marked.obey, he]
    exact h.given k (hs.subset hk)
  · obtain ⟨actor, image, entrance, tween, rfl⟩ := exists_spawn he
    have hp : (m.obey (.start (.spawn actor image entrance tween))).marks.Perm
        (m.next :: m.marks) := by
      rw [h.marks_spawn]
      exact List.perm_insertIdx _ _ (h.slot_le entrance)
    refine ⟨(List.length_map _).trans hl, ?_, ?_⟩
    · rw [hp.nodup_iff, List.nodup_cons]
      exact ⟨fun hm => Nat.lt_irrefl _ (h.given _ hm), h.nodup⟩
    · intro k hk
      rcases List.mem_cons.mp (hp.subset hk) with rfl | hk
      · exact Nat.lt_succ_self m.next
      · exact Nat.lt_succ_of_lt (h.given k hk)

theorem later_obey (h : m.Sound) (e : Event) : m.Later (m.obey e) := by
  by_cases he : e.entrance? = none
  · refine ⟨?_, List.filter_sublist.trans (h.sublist_arranged he)⟩
    rw [Marked.obey, he]
    exact Nat.le_refl m.next
  · obtain ⟨actor, image, entrance, tween, rfl⟩ := exists_spawn he
    refine ⟨Nat.le_succ m.next, ?_⟩
    rw [h.marks_spawn, filter_insertIdx_of_not (p := fun k => decide (k < m.next))
      (decide_eq_false (Nat.lt_irrefl m.next))]
    exact List.filter_sublist

theorem follow (h : m.Sound) (events : List Event) : (m.follow events).Sound := by
  induction events generalizing m with
  | nil => exact h
  | cons e events ih => exact ih (h.obey e)

end Sound

theorem Later.trans (h : m.Later n) (h' : n.Later o) : m.Later o where
  next := Nat.le_trans h.next h'.next
  marks := by
    have ho : o.marks.filter (· < m.next) =
        (o.marks.filter (· < n.next)).filter (· < m.next) := by
      rw [List.filter_filter]
      apply List.filter_congr
      intro k _
      have hn := h.next
      by_cases hk : k < m.next
      · simp [hk, Nat.lt_of_lt_of_le hk hn]
      · simp [hk]
    rw [ho]
    exact (h'.marks.filter _).trans h.marks

namespace Sound

theorem later_follow (h : m.Sound) (events : List Event) : m.Later (m.follow events) := by
  induction events generalizing m with
  | nil => exact ⟨Nat.le_refl _, List.filter_sublist⟩
  | cons e events ih => exact (h.later_obey e).trans (ih (h.obey e))

theorem sublist_follow (h : m.Sound) (events : List Event) :
    ((m.follow events).marks.filter (· ∈ m.marks)).Sublist m.marks := by
  refine List.Sublist.trans ?_ (h.later_follow events).marks
  apply List.monotone_filter_right
  intro k hk
  exact decide_eq_true (h.given k (of_decide_eq_true hk))

variable {p : Nat × Figure}

theorem mem_arranged_iff (hp : p ∈ m.figures) (e : Event) :
    p ∈ m.arranged e ↔ e.exits? m.board ≠ some p.2.id := by
  by_cases he : e.entrance? = none
  · rw [arranged_of_none he]
    cases e.exits? m.board with
    | none => exact iff_of_true hp nofun
    | some id =>
      rw [List.mem_filter, bne_iff_ne, ne_eq, ne_eq, Option.some.injEq, eq_comm (a := id)]
      exact and_iff_right hp
  · obtain ⟨actor, image, entrance, tween, rfl⟩ := exists_spawn he
    refine iff_of_true ?_ nofun
    exact (List.sublist_insertIdx _ _ _).subset hp

theorem fst_of_mem_arranged {q : Nat × Figure} (hq : q ∈ m.arranged e) :
    q ∈ m.figures ∨ q.1 = m.next ∧ e.entrance? ≠ none := by
  by_cases he : e.entrance? = none
  · rw [arranged_of_none he] at hq
    left
    cases hx : e.exits? m.board with
    | none =>
      rw [hx] at hq
      exact hq
    | some id =>
      rw [hx] at hq
      exact (List.mem_filter.mp hq).1
  · obtain ⟨actor, image, entrance, tween, rfl⟩ := exists_spawn he
    rcases List.eq_or_mem_of_mem_insertIdx hq with rfl | hq
    · exact .inr ⟨rfl, he⟩
    · exact .inl hq

theorem mark_mem (h : m.Sound) (hp : p ∈ m.figures) : p.1 ∈ m.marks := by
  rw [← h.map_fst]
  exact List.mem_map_of_mem hp

theorem mem_marks_iff (h : m.Sound) (hp : p ∈ m.figures) (e : Event) :
    p.1 ∈ (m.obey e).marks ↔ p ∈ m.arranged e := by
  constructor
  · intro hk
    obtain ⟨q, hq, hqp⟩ := List.mem_map.mp hk
    rcases fst_of_mem_arranged hq with hm | ⟨hn, -⟩
    · have hd : (m.figures.map Prod.fst).Nodup := by
        rw [h.map_fst]
        exact h.nodup
      rwa [← List.inj_on_of_nodup_map hd hm hp hqp]
    · have hlt := h.given _ (h.mark_mem hp)
      rw [← hqp, hn] at hlt
      exact (Nat.lt_irrefl _ hlt).elim
  · exact List.mem_map_of_mem

theorem exists_figure (h : m.Sound) (hp : p ∈ m.arranged e) :
    ∃ f, (p.1, f) ∈ (m.obey e).figures ∧ f.id = p.2.id ∧ (e.actor? ≠ some p.2.id → f = p.2) := by
  rw [List.zip_of_prod (rfl : (m.arranged e).map Prod.fst = _) rfl] at hp
  exact exists_mem_zip (h.alters_arranged e) hp

theorem exists_entered (h : m.Sound) (actor image : String) (entrance : Entrance)
    (tween : Option Nat) :
    ∃ f, (m.next, f) ∈ (m.obey (.start (.spawn actor image entrance tween))).figures ∧
      f.id = actor ∧ f.image = image := by
  have hp : (m.next, Figure.entering actor image (m.board.direction entrance)) ∈
      m.arranged (.start (.spawn actor image entrance tween)) :=
    (List.mem_insertIdx (Board.slot_le _ _)).mpr (.inl rfl)
  rw [List.zip_of_prod (rfl : (m.arranged _).map Prod.fst = _) rfl] at hp
  obtain ⟨change, hc, hf⟩ := h.figures_spawn actor image entrance tween
  obtain ⟨f, hm, rfl | ⟨-, rfl⟩⟩ := exists_mem_zip (forall₂_modifyFirst change actor _) hp
  · rw [← hf] at hm
    exact ⟨_, hm, rfl, rfl⟩
  · rw [← hf] at hm
    exact ⟨_, hm, (hc _).1, (hc _).2⟩

end Sound

end Marked

/-- Whatever happens to a board, those who are still there keep their order, and who comes takes the
place of the entrance. -/
theorem places_kept (b : Board) (events : List Event) :
    let m := (Marked.ofBoard b).follow events
    (m.board = b.follow events ∧ m.marks.length = m.board.figures.length ∧ m.marks.Nodup) ∧
      (∀ more, ((m.follow more).marks.filter (· ∈ m.marks)).Sublist m.marks) ∧
      (∀ e, let n := m.obey e
        (∀ p ∈ m.figures, p.1 ∉ n.marks ↔ e.exits? m.board = some p.2.id) ∧
          (∀ p ∈ m.figures, p.1 ∈ n.marks →
            ∃ f, (p.1, f) ∈ n.figures ∧ f.id = p.2.id ∧ (e.actor? ≠ some p.2.id → f = p.2)) ∧
          ∀ k ∈ n.marks, k ∉ m.marks → k = m.next ∧ e.entrance? ≠ none) ∧
      ∀ actor image entrance tween,
        let n := m.obey (.start (.spawn actor image entrance tween))
        let count := m.board.figures.length
        slot count entrance ≤ count ∧
          (∃ f, (m.next, f) ∈ n.figures ∧ f.id = actor ∧ f.image = image) ∧
          (entrance = .left ∨ entrance = .bottomLeft → n.marks = m.next :: m.marks) ∧
          (entrance = .right ∨ entrance = .bottomRight → n.marks = m.marks ++ [m.next]) ∧
          (entrance = .center ∨ entrance = .top →
            n.marks = m.marks.take (count / 2) ++ m.next :: m.marks.drop (count / 2)) := by
  intro m
  have h : m.Sound := (Marked.sound_ofBoard b).follow events
  refine ⟨⟨Marked.board_follow _ events, h.aligned, h.nodup⟩, h.sublist_follow, ?_, ?_⟩
  · intro e n
    refine ⟨?_, ?_, ?_⟩
    · intro p hp
      rw [h.mem_marks_iff hp, Marked.Sound.mem_arranged_iff hp, not_not]
    · intro p hp hk
      exact h.exists_figure ((h.mem_marks_iff hp e).mp hk)
    · intro k hk hn
      obtain ⟨q, hq, rfl⟩ := List.mem_map.mp hk
      exact (Marked.Sound.fst_of_mem_arranged hq).resolve_left fun hm => hn (h.mark_mem hm)
  · intro actor image entrance tween n count
    have hm : n.marks = m.marks.insertIdx (slot count entrance) m.next :=
      h.marks_spawn actor image entrance tween
    have hs := h.slot_le entrance
    refine ⟨slot_le count entrance, h.exists_entered actor image entrance tween, ?_, ?_, ?_⟩
    · intro he
      rw [hm]
      rcases he with rfl | rfl <;> exact List.insertIdx_zero
    · intro he
      rw [hm, ← List.insertIdx_length_self, h.aligned]
      rcases he with rfl | rfl <;> rfl
    · intro he
      rw [hm, insertIdx_eq_take_append _ hs]
      rcases he with rfl | rfl <;> rfl

end Board

end Dialogue
