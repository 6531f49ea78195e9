import Dialogue.Proofs.Stage.Finale
import Mathlib.Data.List.InsertIdx
namespace Dialogue

open Relation (ReflTransGen)

namespace Board

/-- The actors on stage from left to right. -/
def lineup (b : Board) : List String :=
  b.figures.map Figure.id

theorem map_id_modifyFirst (change : Figure → Figure) (hc : ∀ f, (change f).id = f.id)
    (id : String) (l : List Figure) :
    (modifyFirst id change l).map Figure.id = l.map Figure.id := by
  induction l with
  | nil => rfl
  | cons f r ih =>
    rw [modifyFirst]
    split
    · rw [List.map_cons, List.map_cons, hc]
    · rw [List.map_cons, List.map_cons, ih]

theorem lineup_insert (b : Board) (f : Figure) (entrance : Entrance) :
    (b.insert f entrance).lineup = b.lineup.insertIdx (slot b.lineup.length entrance) f.id := by
  rw [lineup, lineup, insert, List.map_insertIdx, List.length_map]

theorem lineup_remove (b : Board) (id : String) :
    (b.remove id).lineup = b.lineup.filter (· != id) := by
  rw [lineup, lineup, remove, List.filter_map]
  rfl

theorem mem_lineup {b : Board} {id : String} (h : b.figuresOf id ≠ []) : id ∈ b.lineup := by
  obtain ⟨f, hf⟩ := List.exists_mem_of_ne_nil _ h
  obtain ⟨hm, hid⟩ := List.mem_filter.mp hf
  exact List.mem_map.mpr ⟨f, hm, of_decide_eq_true hid⟩

end Board

namespace Act

def entrance? : Act → Option Entrance
  | .spawn _ _ entrance _ => some entrance
  | _ => none

def seats (act : Act) (lineup : List String) : List String :=
  match act.entrance? with
  | some entrance => lineup.insertIdx (Board.slot lineup.length entrance) act.actor
  | none => lineup

def vacates (act : Act) (lineup : List String) : List String :=
  match act with
  | .despawn actor .. => lineup.filter (· != actor)
  | _ => lineup

variable {act act' : Act}

theorem seats_of_none (h : act.entrance? = none) (lineup : List String) :
    act.seats lineup = lineup := by
  rw [seats, h]

theorem vacates_of_stays (h : ¬ act.Exits) (lineup : List String) :
    act.vacates lineup = lineup := by
  cases act with
  | despawn actor exit tweens width => exact absurd trivial h
  | _ => rfl

theorem vacates_congr (ha : act'.actor = act.actor) (he : act'.Exits ↔ act.Exits)
    (lineup : List String) : act'.vacates lineup = act.vacates lineup := by
  by_cases hx : act.Exits
  · have hx' := he.mpr hx
    cases act with
    | despawn actor exit tweens width =>
      cases act' with
      | despawn actor' exit' tweens' width' =>
        obtain rfl : actor' = actor := ha
        rfl
      | _ => exact hx'.elim
    | _ => exact hx.elim
  · rw [vacates_of_stays hx, vacates_of_stays (mt he.mp hx)]

theorem exits_start (act : Act) (b : Board) : (act.start b).1.Exits ↔ act.Exits := by
  cases act <;> exact Iff.rfl

theorem exits_hasten (act : Act) (b : Board) : (act.hasten b).1.Exits ↔ act.Exits := by
  cases act with
  | despawn actor exit tweens width => cases tweens <;> exact Iff.rfl
  | _ => exact Iff.rfl

theorem lineup_apply (act : Act) (b : Board) (t : Float32) :
    (act.apply b t).lineup = b.lineup := by
  rw [apply_eq]
  exact Board.map_id_modifyFirst _ (act.id_shown b t) _ _

theorem lineup_start (act : Act) (b : Board) : (act.start b).2.lineup = act.seats b.lineup := by
  rw [start, lineup_apply]
  cases act with
  | spawn actor image entrance tween => exact b.lineup_insert _ entrance
  | despawn actor exit tweens width => rfl
  | gesture actor g tween secondHalf =>
    exact Board.map_id_modifyFirst (fun f => { f with motion := .zero, scale := 1 })
      (fun _ => rfl) actor b.figures
  | expression actor image tween => rfl

/-- What becomes of an act and of the actors on stage: it goes on, or it is over. -/
def Keeps (act : Act) (lineup : List String) : Status × Act × Board → Prop
  | (.pending, act', b) =>
    act'.actor = act.actor ∧ (act'.Exits ↔ act.Exits) ∧ b.lineup = lineup
  | (.done, _, b) => b.lineup = act.vacates lineup

theorem keeps_conclude (act : Act) (b : Board) : act.Keeps b.lineup (act.conclude b) := by
  rcases act.concludes_cases with hc | ⟨actor, tween, rfl⟩ | ⟨actor, exit, tweens, width, rfl⟩
  · rw [hc.conclude_eq]
    exact (vacates_of_stays hc.stays _).symm
  · exact ⟨rfl, Iff.rfl, rfl⟩
  · exact b.lineup_remove actor

theorem keeps_poll (h : act.tween?.isSome = true) (b : Board) :
    act.Keeps b.lineup (act.poll b) := by
  obtain ⟨id, hid⟩ := Option.isSome_iff_exists.mp h
  have ha := act.lineup_apply b (b.progress id)
  rw [poll, hid]
  by_cases hlt : b.progress id < 1
  · simp only [if_pos hlt]
    exact ⟨rfl, Iff.rfl, ha⟩
  · simp only [if_neg hlt]
    rw [← ha]
    exact act.keeps_conclude _

theorem lineup_finish (act : Act) (b : Board) :
    (act.finish b).2.lineup = act.vacates b.lineup := by
  have ha := actor_hasten act b
  have he := act.exits_hasten b
  have hf : (act.hasten b).2.lineup = b.lineup := congrArg (List.map _) (act.figures_hasten b)
  rw [finish, ← vacates_congr ha he, ← hf]
  rcases act.hasten b with ⟨act', b'⟩
  have hl := act'.lineup_apply b' 1
  cases act' with
  | despawn actor exit tweens width => exact (Board.lineup_remove _ actor).trans (congrArg _ hl)
  | _ => exact hl

end Act

/-- What a step comes to for the actors on stage: acts go on, and an actor takes a place or leaves
it. -/
inductive Files : (String → List Act) × List String → (String → List Act) × List String → Prop
  | waits {book : String → List Act} {lineup : List String} {actor : String} {act act' : Act}
      {rest : List Act} (hb : book actor = act :: rest) (ha : act'.actor = act.actor)
      (he : act'.Exits ↔ act.Exits) :
      Files (book, lineup) (Function.update book actor (act' :: rest), lineup)
  | ends {book : String → List Act} {lineup : List String} {actor : String} {act : Act}
      (hb : book actor = [act]) :
      Files (book, lineup) (Function.update book actor [], act.vacates lineup)
  | passes {book : String → List Act} {lineup : List String} {actor : String}
      {act next next' : Act} {rest : List Act} (hb : book actor = act :: next :: rest)
      (ha : next'.actor = next.actor) (he : next'.Exits ↔ next.Exits) :
      Files (book, lineup)
        (Function.update book actor (next' :: rest), next.seats (act.vacates lineup))

namespace Performance

variable {s : StageSettings} {goal : String → Option String}

theorem lineup_ends {act : Act} {b b' : Board} {image : Option String} (he : Ends act b b')
    (hu : act.Underway b image) : b'.lineup = act.vacates b.lineup := by
  cases he with
  | @polled act' b' hp =>
    have hp : act.poll b = (.done, act', b') := hp
    have hk := Act.keeps_poll hu.started b
    rw [hp] at hk
    exact hk
  | finished => exact act.lineup_finish b

theorem files {t t' : (String → List Act) × Board} (h : Performance s goal t.1 t.2)
    (ha : Advances t t') : Files (t.1, t.2.lineup) (t'.1, t'.2.lineup) := by
  cases ha with
  | @waits book b b' actor act act' rest hb hp =>
    obtain ⟨-, image, hu, -⟩ := h.underway hb
    have hp : act.poll b = (.pending, act', b') := hp
    have hk := Act.keeps_poll hu.started b
    rw [hp] at hk
    obtain ⟨hid, he, hl⟩ := hk
    rw [hl]
    exact .waits hb hid he
  | @ends book b b' actor act hb he =>
    obtain ⟨-, image, hu, -⟩ := h.underway hb
    rw [lineup_ends he hu]
    exact .ends hb
  | @passes book b b' actor act next rest hb he =>
    obtain ⟨-, image, hu, -⟩ := h.underway hb
    have hl := next.lineup_start b'
    rw [lineup_ends he hu] at hl
    rw [show (Task.start next b').2.lineup = _ from hl]
    exact .passes hb (next.actor_start b') (next.exits_start b')

end Performance

end Dialogue
