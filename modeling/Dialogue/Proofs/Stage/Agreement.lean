import Dialogue.Proofs.Play.Variation
import Dialogue.Proofs.Stage.Instructions
namespace Dialogue

namespace Console

def untimed (c : Console) : Console :=
  { c with typewriter := .idle 0 }

theorem untimed_perform {c c' : Console} (h : c.untimed = c'.untimed) (x : ScreenCue) :
    (c.perform x).untimed = (c'.perform x).untimed := by
  simp only [untimed, mk.injEq, and_true] at h
  obtain ⟨hp, hs, hc⟩ := h
  cases x <;> simp only [perform, print, untimed, hp, hs, hc]

theorem choices_untimed {c c' : Console} (h : c.untimed = c'.untimed) : c.choices = c'.choices :=
  (mk.inj h).2.2.1

theorem drain_untimed {c c' : Console} (h : c.untimed = c'.untimed) :
    c.drain.1 = c'.drain.1 ∧ c.drain.2.untimed = c'.drain.2.untimed := by
  obtain ⟨hp, hs, hc, _⟩ := mk.inj h
  refine ⟨hp, ?_⟩
  simp only [drain, untimed, hs, hc]

end Console

namespace Stage

section

variable {σ : Type} [Screen σ]

def react (s : Stage σ) : Narrator × Except Fault Tick → Stage σ × Except Fault Phase
  | (narrator, .error fault) => ({ s with narrator := narrator }, .error fault)
  | (narrator, .ok tick) =>
    let s := tick.cues.foldl perform { s with narrator := narrator }
    ({ s with change := tick.change.or s.change }, .ok tick.phase)

theorem tick_eq_react (s : Stage σ) (input : Option Input) :
    s.tick input = s.react (s.narrator.tick input) := by
  rw [tick]
  rcases s.narrator.tick input with ⟨narrator, fault | t⟩ <;> rfl

theorem tick_of_react {s : Stage σ} {x : Narrator × Except Fault Tick} {phase : Phase}
    (h : (s.react x).2 = .ok phase) : ∃ t, x.2 = .ok t ∧ t.phase = phase := by
  rcases x with ⟨narrator, fault | t⟩
  · cases h
  · exact ⟨t, rfl, Except.ok.inj h⟩

/-- The text is shown in full, and every act is at its end. -/
def shownInFull (s : Stage σ) : Stage σ :=
  { s with screen := Screen.perform s.screen .completeReveal, director := s.director.completeAll }

end

/-- The stages agree in all that there is to read, but perhaps in the actors and in what takes time.
-/
structure Agrees (s s' : Stage Console) : Prop where
  narrator : s.narrator.Agrees s'.narrator
  screen : s.screen.untimed = s'.screen.untimed
  change : s.change = s'.change

/-- Two answers are the same, and the stages agree at a stop. -/
structure Meet (r r' : Stage Console × Except Fault Phase) : Prop where
  answer : r.2 = r'.2
  stage : r.1.Agrees r'.1
  stop : ∀ phase, r.2 = .ok phase → r.1.narrator.phase = phase ∧ phase ≠ .awaitingAdvance false

variable {s s' : Stage Console}

theorem Agrees.perform (h : s.Agrees s') (c : Cue) : (s.perform c).Agrees (s'.perform c) := by
  rw [perform_eq, perform_eq]
  cases c.receiver with
  | inl x => exact ⟨h.narrator, Console.untimed_perform h.screen x, h.change⟩
  | inr o => exact ⟨h.narrator, h.screen, h.change⟩

theorem Agrees.performAll (h : s.Agrees s') (cues : List Cue) :
    (cues.foldl Stage.perform s).Agrees (cues.foldl Stage.perform s') := by
  induction cues generalizing s s' with
  | nil => exact h
  | cons c cues ih => exact ih (h.perform c)

theorem Agrees.shownInFull (h : s.Agrees s') : s.shownInFull.Agrees s'.shownInFull :=
  ⟨h.narrator, Console.untimed_perform h.screen .completeReveal, h.change⟩

theorem Agrees.react (h : s.Agrees s') {x x' : Narrator × Except Fault Tick} (hr : x.2 = x'.2)
    (hn : x.1.Agrees x'.1) (hs : Narrator.Stops x) : Meet (s.react x) (s'.react x') := by
  obtain ⟨n, r⟩ := x
  obtain ⟨n', r'⟩ := x'
  cases hr
  cases r with
  | error fault => exact ⟨rfl, ⟨hn, h.screen, h.change⟩, nofun⟩
  | ok t =>
    have hnow : Agrees { s with narrator := n } { s' with narrator := n' } :=
      ⟨hn, h.screen, h.change⟩
    have ha := hnow.performAll t.cues
    refine ⟨rfl, ⟨ha.narrator, ha.screen, congrArg t.change.or ha.change⟩, ?_⟩
    intro phase hp
    cases hp
    refine ⟨?_, (hs t rfl).2⟩
    exact (congrArg Narrator.phase (narrator_perform _ t.cues)).trans (hs t rfl).1

theorem Agrees.tick (h : s.Agrees s') (hp : s.narrator.phase ≠ .awaitingAdvance false)
    {input : Option Input} (hi : s.narrator.endsReveal input = false) :
    Meet (s.tick input) (s'.tick input) := by
  obtain ⟨hr, hn⟩ := h.narrator.tick hi
  rw [tick_eq_react, tick_eq_react]
  exact h.react hr hn (Narrator.stops_tick hp hi)

theorem Agrees.reload (h : s.Agrees s') (p : Program) : Meet (s.reload p) (s'.reload p) := by
  have ha : Agrees
      { s with narrator := s.narrator.reset p, director := s.director.clear, change := none
               screen := Screen.perform s.screen .clearChoices }
      { s' with narrator := s'.narrator.reset p, director := s'.director.clear, change := none
                screen := Screen.perform s'.screen .clearChoices } := by
    obtain ⟨b, hb⟩ := h.narrator
    exact ⟨⟨b, by rw [hb]; rfl⟩, Console.untimed_perform h.screen .clearChoices, rfl⟩
  exact ha.tick (by simp [Narrator.reset]) (by simp [Narrator.endsReveal])

theorem Agrees.takeChange (h : s.Agrees s') :
    s.takeChange.1 = s'.takeChange.1 ∧ s.takeChange.2.Agrees s'.takeChange.2 :=
  ⟨h.change, h.narrator, h.screen, rfl⟩

/-- To skip a text tells the narrator that it is shown in full, whatever time it takes. -/
theorem skip_eq {s : Stage Console} (h : s.narrator.phase = .awaitingAdvance true) :
    s.skip = s.shownInFull.react (s.narrator.tick (some .revealFinished)) := by
  have hr : Screen.isRevealed (Screen.perform s.screen .completeReveal) = true :=
    decide_eq_true (Nat.le_refl _)
  rw [skip, sync, if_pos ⟨h, hr⟩, tick_eq_react]
  rfl

end Stage

end Dialogue
