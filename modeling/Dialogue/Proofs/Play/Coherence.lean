import Dialogue.Proofs.Play.Tick
namespace Dialogue

namespace Narrator

/-- What the phase of a narrator says about the place that the script has come to. -/
def Coherent (n : Narrator) : Prop :=
  match n.phase with
  | .idle => n.cursor.position = none
  | .running => False
  | .awaitingAdvance revealing =>
    (∃ content, n.cursor.current? = some (.message content)) ∧
      (revealing = false → n.autoAdvance = false)
  | .awaitingChoice count =>
    ∃ options, n.cursor.current? = some (.choices options) ∧ options ≠ [] ∧ options.length = count
  | .finished => True

theorem coherent_start (p : Program) (s : Store) (autoAdvance : Bool) :
    (start p s autoAdvance).Coherent := rfl

theorem coherent_reset (n : Narrator) (p : Program) : (n.reset p).Coherent := rfl

theorem Coherent.message {n : Narrator} {revealing : Bool} (h : n.Coherent)
    (hp : n.phase = .awaitingAdvance revealing) :
    ∃ content, n.cursor.current? = some (.message content) := by
  rw [Coherent, hp] at h
  exact h.1

theorem Coherent.choices {n : Narrator} {count : Nat} (h : n.Coherent)
    (hp : n.phase = .awaitingChoice count) :
    ∃ options, n.cursor.current? = some (.choices options) ∧ options ≠ [] ∧
      options.length = count := by
  rw [Coherent, hp] at h
  exact h

theorem Coherent.target_eq {n : Narrator} {count index : Nat} (h : n.Coherent)
    (hp : n.phase = .awaitingChoice count) (hi : index < count) :
    ∃ options, ∃ o ∈ options, n.cursor.current? = some (.choices options) ∧
      n.target index = .ok o.target := by
  obtain ⟨options, hc, _, rfl⟩ := h.choices hp
  refine ⟨options, options[index], List.getElem_mem hi, hc, ?_⟩
  simp only [target, hc, List.getElem?_eq_getElem hi]

theorem coherent_settle (n : Narrator) (due : List Cue) {s : Stretch} {fresh : List Nat}
    (h : n.cursor.Plays fresh n.store s) : (n.settle due s).1.Coherent := by
  rw [settle]
  cases hs : s.stop with
  | waits phase =>
    obtain ⟨a, ha, hn⟩ := h.current_of_waits hs
    rcases Action.eq_of_next_wait hn with ⟨⟨content, rfl⟩, rfl⟩ | ⟨options, rfl, ho, rfl⟩
    · refine ⟨⟨content, ha⟩, ?_⟩
      intro he
      cases he
    · exact ⟨options, ha, ho, rfl⟩
  | ends => trivial
  | leaves change => trivial
  | fails fault => trivial

theorem Answers.coherent {n : Narrator} {input : Option Input}
    {answer : Narrator × Except Fault Tick} (h : Answers n input answer) (hc : n.Coherent) :
    answer.1.Coherent := by
  cases h with
  | clicked hp ha =>
    refine ⟨hc.message hp, ?_⟩
    intro _
    exact ha
  | shown hp ha =>
    refine ⟨hc.message hp, ?_⟩
    intro _
    exact ha
  | lost => trivial
  | _ => exact hc

theorem coherent_tick {n : Narrator} (h : n.Coherent) (input : Option Input) :
    (n.tick input).1.Coherent := by
  rcases n.tick_cases input with ha | ⟨m, due, _, he⟩
  · exact ha.coherent h
  · rw [he]
    exact m.coherent_settle due m.plays_stretch

theorem program_settle (n : Narrator) (due : List Cue) {s : Stretch} {fresh : List Nat}
    (h : n.cursor.Plays fresh n.store s) :
    (n.settle due s).1.cursor.program = n.cursor.program := by
  rw [settle]
  cases s.stop <;> exact h.program_eq

theorem Answers.program_eq {n : Narrator} {input : Option Input}
    {answer : Narrator × Except Fault Tick} (h : Answers n input answer) :
    answer.1.cursor.program = n.cursor.program := by
  cases h <;> rfl

theorem program_tick (n : Narrator) (input : Option Input) :
    (n.tick input).1.cursor.program = n.cursor.program := by
  rcases n.tick_cases input with ha | ⟨m, due, hr, he⟩
  · exact ha.program_eq
  · rw [he, m.program_settle due m.plays_stretch]
    exact hr.program_eq

def after (n : Narrator) (inputs : List (Option Input)) : Narrator :=
  inputs.foldl (fun n input => (n.tick input).1) n

theorem coherent_after {n : Narrator} (h : n.Coherent) (inputs : List (Option Input)) :
    (n.after inputs).Coherent := by
  induction inputs generalizing n with
  | nil => exact h
  | cons input inputs ih => exact ih (coherent_tick h input)

theorem program_after (n : Narrator) (inputs : List (Option Input)) :
    (n.after inputs).cursor.program = n.cursor.program := by
  induction inputs generalizing n with
  | nil => rfl
  | cons input inputs ih => exact (ih _).trans (n.program_tick input)

/-- The inputs that a narrator refuses in a phase, each with its fault. -/
inductive Refusal : Phase → Option Input → Fault → Prop
  | badIndex {count index} (hi : count ≤ index) :
      Refusal (.awaitingChoice count) (some (.choose index)) (.invalidChoice index count)
  | notChoosing {phase index} (hc : ∀ count, phase ≠ .awaitingChoice count)
      (hf : phase ≠ .finished) : Refusal phase (some (.choose index)) (.notChoosing phase)
  | ended {input} : Refusal .finished (some input) .scriptEnded

theorem tick_of_refusal {n : Narrator} {input : Option Input} {fault : Fault}
    (h : Refusal n.phase input fault) : n.tick input = (n, .error fault) := by
  generalize hp : n.phase = phase at h
  cases h with
  | ended =>
    apply tick_of_answer
    simp only [opening, isFinished, hp, Phase.isFinished, if_true]
  | badIndex hi =>
    apply tick_of_answer
    rw [opening_of_some (by simp [hp])]
    simp only [receive, hp, choose, if_pos hi]
  | notChoosing hc hf =>
    apply tick_of_answer
    rw [opening_of_some (by rwa [hp])]
    cases phase with
    | awaitingChoice count => exact (hc count rfl).elim
    | _ => simp only [receive, hp]

end Narrator

end Dialogue
