import Dialogue.Proofs.Play.Flow
namespace Dialogue

namespace Narrator

/-- What an input comes to before anything is played: an answer, or a narrator that plays on with
cues that are due. -/
def opening (n : Narrator) (input : Option Input) :
    (Narrator × Except Fault Tick) ⊕ (Narrator × List Cue) :=
  if n.isFinished then
    .inl (n, match input with
      | some _ => .error .scriptEnded
      | none => .ok ⟨[], n.phase, none⟩)
  else
    let received := match input with
      | some input => n.receive input
      | none => (n, .ok [])
    match received.2 with
    | .error fault => .inl (received.1, .error fault)
    | .ok due =>
      if received.1.phase.isWaiting then .inl (received.1, .ok ⟨due, received.1.phase, none⟩)
      else .inr (received.1, due)

/-- What a stretch that has been played makes of a narrator. -/
def settle (n : Narrator) (due : List Cue) (s : Stretch) : Narrator × Except Fault Tick :=
  let m := { n with cursor := s.cursor, store := s.store }
  match s.stop with
  | .waits phase => ({ m with phase := phase }, .ok ⟨due ++ s.cues, phase, none⟩)
  | .ends => ({ m with phase := .finished }, .ok ⟨due ++ s.cues, .finished, none⟩)
  | .leaves change => ({ m with phase := .finished }, .ok ⟨due ++ s.cues, .finished, some change⟩)
  | .fails fault => ({ m with phase := .finished }, .error fault)

def stretch (n : Narrator) : Stretch :=
  n.cursor.play (List.range n.cursor.program.size) n.store

theorem plays_stretch (n : Narrator) :
    n.cursor.Plays (List.range n.cursor.program.size) n.store n.stretch :=
  Cursor.plays _ _ _

theorem proceed_eq (n : Narrator) (due : List Cue) : n.proceed due = n.settle due n.stretch := rfl

theorem proceed_of_plays {n : Narrator} {s : Stretch}
    (h : n.cursor.Plays (List.range n.cursor.program.size) n.store s) (due : List Cue) :
    n.proceed due = n.settle due s := by
  rw [proceed_eq, stretch, h.play_eq]

theorem tick_eq (n : Narrator) (input : Option Input) :
    n.tick input = match n.opening input with
      | .inl answer => answer
      | .inr (m, due) => m.settle due m.stretch := by
  unfold tick opening
  by_cases hf : n.isFinished = true
  · cases input <;> simp only [hf, if_true]
  · cases input with
    | none => cases hw : n.phase.isWaiting <;> simp [hf, hw, proceed_eq]
    | some input =>
      simp only [hf]
      rcases n.receive input with ⟨m, fault | due⟩
      · rfl
      · cases m.phase.isWaiting <;> simp [proceed_eq]

theorem tick_of_answer {n : Narrator} {input : Option Input} {answer : Narrator × Except Fault Tick}
    (h : n.opening input = .inl answer) : n.tick input = answer := by
  rw [tick_eq, h]

theorem tick_of_play {n m : Narrator} {input : Option Input} {due : List Cue}
    (h : n.opening input = .inr (m, due)) : n.tick input = m.settle due m.stretch := by
  rw [tick_eq, h]

theorem settle_fails {n : Narrator} {due : List Cue} {s : Stretch} {fault : Fault} :
    (n.settle due s).2 = .error fault ↔ s.stop = .fails fault := by
  rw [settle]
  cases s.stop <;> simp

/-- The ways in which an input, or the lack of one, makes a narrator play on with cues that are due.
-/
inductive Resumes (n : Narrator) : Option Input → Narrator → List Cue → Prop
  | goes {input} (hw : n.phase.isWaiting = false) (hf : n.phase ≠ .finished)
      (hc : ∀ index, input ≠ some (.choose index)) : Resumes n input n []
  | clicked (hp : n.phase = .awaitingAdvance true) (ha : n.autoAdvance = true) :
      Resumes n (some .advance) { n with phase := .running } [.completeReveal]
  | shown (hp : n.phase = .awaitingAdvance true) (ha : n.autoAdvance = true) :
      Resumes n (some .revealFinished) { n with phase := .running } []
  | confirmed (hp : n.phase = .awaitingAdvance false) :
      Resumes n (some .advance) { n with phase := .running } []
  | chosen {count index label c} (hp : n.phase = .awaitingChoice count) (hi : index < count)
      (ht : n.target index = .ok label) (hj : n.cursor.jump? label = some c) :
      Resumes n (some (.choose index)) { n with cursor := c, phase := .running } [.clearChoices]

inductive Answers (n : Narrator) : Option Input → Narrator × Except Fault Tick → Prop
  | stopped (hp : n.phase = .finished) : Answers n none (n, .ok ⟨[], n.phase, none⟩)
  | ended {input} (hp : n.phase = .finished) : Answers n (some input) (n, .error .scriptEnded)
  | waits (hw : n.phase.isWaiting = true) : Answers n none (n, .ok ⟨[], n.phase, none⟩)
  | repeated (hp : n.phase = .awaitingAdvance false) :
      Answers n (some .revealFinished) (n, .ok ⟨[], n.phase, none⟩)
  | ignored {input count} (hp : n.phase = .awaitingChoice count)
      (hc : ∀ index, input ≠ .choose index) : Answers n (some input) (n, .ok ⟨[], n.phase, none⟩)
  | clicked (hp : n.phase = .awaitingAdvance true) (ha : n.autoAdvance = false) :
      Answers n (some .advance) ({ n with phase := .awaitingAdvance false },
        .ok ⟨[.completeReveal], .awaitingAdvance false, none⟩)
  | shown (hp : n.phase = .awaitingAdvance true) (ha : n.autoAdvance = false) :
      Answers n (some .revealFinished) ({ n with phase := .awaitingAdvance false },
        .ok ⟨[], .awaitingAdvance false, none⟩)
  | badIndex {count index} (hp : n.phase = .awaitingChoice count) (hi : count ≤ index) :
      Answers n (some (.choose index)) (n, .error (.invalidChoice index count))
  | astray {count index fault} (hp : n.phase = .awaitingChoice count) (hi : index < count)
      (ht : n.target index = .error fault) : Answers n (some (.choose index)) (n, .error fault)
  | lost {count index label} (hp : n.phase = .awaitingChoice count) (hi : index < count)
      (ht : n.target index = .ok label) (hj : n.cursor.jump? label = none) :
      Answers n (some (.choose index))
        ({ n with phase := .finished }, .error (.labelNotFound label))
  | notChoosing {index} (hc : ∀ count, n.phase ≠ .awaitingChoice count)
      (hf : n.phase ≠ .finished) :
      Answers n (some (.choose index)) (n, .error (.notChoosing n.phase))

theorem opening_of_some {n : Narrator} {input : Input} (hf : n.phase ≠ .finished) :
    n.opening (some input) =
      match n.receive input with
      | (m, .error fault) => .inl (m, .error fault)
      | (m, .ok due) =>
        if m.phase.isWaiting then .inl (m, .ok ⟨due, m.phase, none⟩) else .inr (m, due) := by
  have hf : n.isFinished = false := by
    rw [isFinished, Bool.eq_false_iff, ne_eq, Phase.isFinished_iff]
    exact hf
  simp only [opening, hf, Bool.false_eq_true, if_false]
  rcases n.receive input with ⟨m, fault | due⟩ <;> rfl

theorem opening_none {n : Narrator} (hf : n.phase ≠ .finished) :
    n.opening none =
      if n.phase.isWaiting then .inl (n, .ok ⟨[], n.phase, none⟩) else .inr (n, []) := by
  have hf : n.isFinished = false := by
    rw [isFinished, Bool.eq_false_iff, ne_eq, Phase.isFinished_iff]
    exact hf
  simp only [opening, hf, Bool.false_eq_true, if_false]

theorem afterReveal_of_auto {n : Narrator} (ha : n.autoAdvance = true) :
    n.afterReveal = .running := by
  rw [afterReveal, if_pos ha]

theorem afterReveal_of_click {n : Narrator} (ha : n.autoAdvance = false) :
    n.afterReveal = .awaitingAdvance false := by
  rw [afterReveal, ha]
  rfl

def Opens (n : Narrator) (input : Option Input) :
    (Narrator × Except Fault Tick) ⊕ (Narrator × List Cue) → Prop
  | .inl answer => Answers n input answer
  | .inr (m, due) => Resumes n input m due

theorem opens_choose {n : Narrator} (hf : n.phase ≠ .finished) (index : Nat) :
    Opens n (some (.choose index)) (n.opening (some (.choose index))) := by
  rw [opening_of_some hf]
  cases hp : n.phase with
  | finished => exact (hf hp).elim
  | idle | running | awaitingAdvance revealing =>
    simp only [receive, hp]
    rw [← hp]
    exact .notChoosing (by simp [hp]) hf
  | awaitingChoice count =>
    simp only [receive, hp, choose]
    by_cases hi : count ≤ index
    · rw [if_pos hi]
      exact .badIndex hp hi
    · rw [if_neg hi]
      have hi := Nat.lt_of_not_le hi
      cases ht : n.target index with
      | error fault => exact .astray hp hi ht
      | ok label =>
        simp only
        cases hj : n.cursor.jump? label with
        | none => exact .lost hp hi ht hj
        | some c => exact .chosen hp hi ht hj

theorem opens_advance {n : Narrator} (hf : n.phase ≠ .finished) :
    Opens n (some .advance) (n.opening (some .advance)) := by
  rw [opening_of_some hf]
  cases hp : n.phase with
  | finished => exact (hf hp).elim
  | idle | running =>
    simp only [receive, hp, Phase.isWaiting, Bool.false_eq_true, if_false]
    exact .goes (by rw [hp]; rfl) hf (by simp)
  | awaitingAdvance revealing =>
    cases revealing with
    | false =>
      simp only [receive, hp, Phase.isWaiting, Bool.false_eq_true, if_false]
      exact .confirmed hp
    | true =>
      cases ha : n.autoAdvance with
      | true =>
        simp only [receive, hp, afterReveal_of_auto ha, Phase.isWaiting, Bool.false_eq_true,
          if_false]
        exact .clicked hp ha
      | false =>
        simp only [receive, hp, afterReveal_of_click ha, Phase.isWaiting, if_true]
        exact .clicked hp ha
  | awaitingChoice count =>
    simp only [receive, hp, Phase.isWaiting, if_true]
    rw [← hp]
    exact .ignored hp (by simp)

theorem opens_revealFinished {n : Narrator} (hf : n.phase ≠ .finished) :
    Opens n (some .revealFinished) (n.opening (some .revealFinished)) := by
  rw [opening_of_some hf]
  cases hp : n.phase with
  | finished => exact (hf hp).elim
  | idle | running =>
    simp only [receive, hp, Phase.isWaiting, Bool.false_eq_true, if_false]
    exact .goes (by rw [hp]; rfl) hf (by simp)
  | awaitingAdvance revealing =>
    cases revealing with
    | false =>
      simp only [receive, hp, Phase.isWaiting, if_true]
      rw [← hp]
      exact .repeated hp
    | true =>
      cases ha : n.autoAdvance with
      | true =>
        simp only [receive, hp, afterReveal_of_auto ha, Phase.isWaiting, Bool.false_eq_true,
          if_false]
        exact .shown hp ha
      | false =>
        simp only [receive, hp, afterReveal_of_click ha, Phase.isWaiting, if_true]
        exact .shown hp ha
  | awaitingChoice count =>
    simp only [receive, hp, Phase.isWaiting, if_true]
    rw [← hp]
    exact .ignored hp (by simp)

theorem opens (n : Narrator) (input : Option Input) : Opens n input (n.opening input) := by
  by_cases hf : n.phase = .finished
  · cases input with
    | none =>
      simp only [opening, isFinished, hf, Phase.isFinished, if_true]
      rw [← hf]
      exact .stopped hf
    | some input =>
      simp only [opening, isFinished, hf, Phase.isFinished, if_true]
      exact .ended hf
  · cases input with
    | none =>
      rw [opening_none hf]
      cases hw : n.phase.isWaiting with
      | true => exact .waits hw
      | false => exact .goes hw hf (by simp)
    | some input =>
      cases input with
      | choose index => exact opens_choose hf index
      | advance => exact opens_advance hf
      | revealFinished => exact opens_revealFinished hf

theorem tick_cases (n : Narrator) (input : Option Input) :
    Answers n input (n.tick input) ∨
      ∃ m due, Resumes n input m due ∧ n.tick input = m.settle due m.stretch := by
  have h := n.opens input
  cases ha : n.opening input with
  | inl answer =>
    rw [ha] at h
    rw [tick_of_answer ha]
    exact .inl h
  | inr p =>
    rw [ha] at h
    exact .inr ⟨p.1, p.2, h, tick_of_play ha⟩

theorem notAtChoice_of_target {n : Narrator} {index : Nat} {fault : Fault}
    (h : n.target index = .error fault) : ∃ kind, fault = .notAtChoice kind := by
  rw [target] at h
  split at h
  · split at h
    · cases h
    · exact ⟨_, (Except.error.inj h).symm⟩
  · exact ⟨_, (Except.error.inj h).symm⟩

theorem Resumes.program_eq {n m : Narrator} {input : Option Input} {due : List Cue}
    (h : Resumes n input m due) : m.cursor.program = n.cursor.program := by
  cases h with
  | chosen _ _ _ hj => exact Cursor.program_jump hj
  | _ => rfl

theorem Answers.ne_noProgress {n : Narrator} {input : Option Input}
    {answer : Narrator × Except Fault Tick} (h : Answers n input answer) (label : String) :
    answer.2 ≠ .error (.noProgress label) := by
  cases h with
  | astray _ _ ht =>
    obtain ⟨kind, rfl⟩ := notAtChoice_of_target ht
    simp
  | _ => simp

end Narrator

end Dialogue
