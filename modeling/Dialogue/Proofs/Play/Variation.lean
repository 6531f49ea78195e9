import Dialogue.Proofs.Play.Tick
namespace Dialogue

def Tick.after (cues : List Cue) (t : Tick) : Tick :=
  { t with cues := cues ++ t.cues }

namespace Narrator

/-- The cues that are due come before those of the stretch, and make no other difference. -/
theorem settle_due (n : Narrator) (due : List Cue) (s : Stretch) :
    n.settle due s = (n.settle [] s).map id (Except.map (Tick.after due)) := by
  rw [settle, settle]
  cases s.stop <;> rfl

def endsReveal (n : Narrator) (input : Option Input) : Bool :=
  n.phase = .awaitingAdvance true && (input = some .advance || input = some .revealFinished)

/-- The same place of the script, with other variables or another way to go on behind a text. -/
def vary (f : Store → Store) (g : Bool → Bool) (n : Narrator) : Narrator :=
  { n with store := f n.store, autoAdvance := g n.autoAdvance }

variable {f : Store → Store} {g : Bool → Bool}

theorem choose_vary (n : Narrator) (count index : Nat) :
    (n.vary f g).choose count index = (n.choose count index).map (vary f g) id := by
  have ht : (n.vary f g).target index = n.target index := rfl
  have hc : (n.vary f g).cursor = n.cursor := rfl
  rw [choose, choose, ht, hc]
  split
  · rfl
  · cases n.target index with
    | error fault => rfl
    | ok label => cases hj : n.cursor.jump? label <;> simp only [hj] <;> rfl

theorem receive_vary {n : Narrator} {i : Input}
    (h : n.endsReveal (some i) = true → g n.autoAdvance = n.autoAdvance) :
    (n.vary f g).receive i = (n.receive i).map (vary f g) id := by
  obtain ⟨c, s, phase, auto⟩ := n
  cases phase with
  | awaitingAdvance revealing =>
    cases revealing with
    | true =>
      cases i with
      | choose index => rfl
      | advance | revealFinished =>
        have ha : g auto = auto := h rfl
        simp only [receive, vary, afterReveal, Prod.map, ha, id_eq]
    | false => cases i <;> rfl
  | awaitingChoice count =>
    cases i with
    | choose index => exact choose_vary _ count index
    | advance | revealFinished => rfl
  | idle | running | finished => cases i <;> rfl

/-- What an input comes to depends neither on the variables nor, but behind a text, on the way to go
on. -/
theorem opening_vary {n : Narrator} {input : Option Input}
    (h : n.endsReveal input = true → g n.autoAdvance = n.autoAdvance) :
    (n.vary f g).opening input =
      (n.opening input).map (Prod.map (vary f g) id) (Prod.map (vary f g) id) := by
  have hf : (n.vary f g).isFinished = n.isFinished := rfl
  cases input with
  | none =>
    have hp : (n.vary f g).phase = n.phase := rfl
    simp only [opening, hf, hp]
    cases n.isFinished with
    | true => rfl
    | false => cases n.phase.isWaiting <;> rfl
  | some i =>
    simp only [opening, hf, receive_vary h]
    cases n.isFinished with
    | true => rfl
    | false =>
      rcases n.receive i with ⟨m, fault | due⟩
      · rfl
      · have hp : (m.vary f g).phase = m.phase := rfl
        simp only [Prod.map, hp, id_eq]
        cases m.phase.isWaiting <;> rfl

def withAuto (autoAdvance : Bool) (n : Narrator) : Narrator :=
  n.vary id fun _ => autoAdvance

theorem settle_withAuto (n : Narrator) (b : Bool) (due : List Cue) (s : Stretch) :
    (n.withAuto b).settle due s = (n.settle due s).map (withAuto b) id := by
  rw [settle, settle]
  cases s.stop <;> rfl

theorem tick_withAuto {n : Narrator} {input : Option Input} (h : n.endsReveal input = false)
    (b : Bool) : (n.withAuto b).tick input = (n.tick input).map (withAuto b) id := by
  have ho : (n.withAuto b).opening input = _ := opening_vary (by simp [h])
  rw [tick_eq, tick_eq, ho]
  cases n.opening input with
  | inl answer => rfl
  | inr p => exact p.1.settle_withAuto b p.2 p.1.stretch

def revealCues : Option Input → List Cue
  | some .advance => [.completeReveal]
  | _ => []

/-- Plays on from where the script waits. -/
def playOn (n : Narrator) (due : List Cue) : Narrator × Except Fault Tick :=
  { n with phase := .running }.proceed due

theorem playOn_withAuto (n : Narrator) (b : Bool) (due : List Cue) :
    (n.withAuto b).playOn due = (n.playOn due).map (withAuto b) id :=
  settle_withAuto { n with phase := .running } b due _

theorem playOn_due (n : Narrator) (due : List Cue) :
    n.playOn due = (n.playOn []).map id (Except.map (Tick.after due)) :=
  settle_due { n with phase := .running } due _

theorem tick_of_endsReveal {n : Narrator} {input : Option Input} (h : n.endsReveal input = true) :
    n.tick input =
      if n.autoAdvance then n.playOn (revealCues input)
      else ({ n with phase := .awaitingAdvance false },
        .ok ⟨revealCues input, .awaitingAdvance false, none⟩) := by
  obtain ⟨c, s, phase, auto⟩ := n
  simp only [endsReveal, Bool.and_eq_true, decide_eq_true_eq, Bool.or_eq_true] at h
  obtain ⟨rfl, rfl | rfl⟩ := h <;> cases auto <;> rfl

theorem tick_of_revealed {n : Narrator} (h : n.phase = .awaitingAdvance false) :
    n.tick (some .advance) = n.playOn [] := by
  obtain ⟨c, s, phase, auto⟩ := n
  cases h
  rfl

/-- The narrators are at the same place with the same variables, but one may go on by itself. -/
def Agrees (n n' : Narrator) : Prop :=
  ∃ b, n' = n.withAuto b

/-- A tick with a result comes to a stop that is not the end of a text. -/
def Stops (answer : Narrator × Except Fault Tick) : Prop :=
  ∀ t, answer.2 = .ok t → answer.1.phase = t.phase ∧ t.phase ≠ .awaitingAdvance false

variable {n n' : Narrator} {input : Option Input}

theorem Agrees.tick (h : n.Agrees n') (hi : n.endsReveal input = false) :
    (n.tick input).2 = (n'.tick input).2 ∧ (n.tick input).1.Agrees (n'.tick input).1 := by
  obtain ⟨b, rfl⟩ := h
  rw [tick_withAuto hi b]
  exact ⟨rfl, b, rfl⟩

theorem Agrees.playOn (h : n.Agrees n') (due : List Cue) :
    (n.playOn due).2 = (n'.playOn due).2 ∧ (n.playOn due).1.Agrees (n'.playOn due).1 := by
  obtain ⟨b, rfl⟩ := h
  rw [n.playOn_withAuto b due]
  exact ⟨rfl, b, rfl⟩

theorem stops_settle (n : Narrator) (due : List Cue) {s : Stretch} {fresh : List Nat}
    (h : n.cursor.Plays fresh n.store s) : Stops (n.settle due s) := by
  intro t ht
  rw [settle] at ht ⊢
  cases hs : s.stop with
  | waits phase =>
    simp only [hs, Except.ok.injEq] at ht
    subst ht
    obtain ⟨a, _, hn⟩ := h.current_of_waits hs
    refine ⟨rfl, ?_⟩
    rcases Action.eq_of_next_wait hn with ⟨_, rfl⟩ | ⟨_, _, _, rfl⟩ <;> simp
  | ends | leaves =>
    simp only [hs, Except.ok.injEq] at ht
    subst ht
    exact ⟨rfl, by simp⟩
  | fails fault => simp [hs] at ht

theorem stops_playOn (n : Narrator) (due : List Cue) : Stops (n.playOn due) :=
  stops_settle { n with phase := .running } due (plays_stretch _)

theorem stops_tick (hn : n.phase ≠ .awaitingAdvance false) (hi : n.endsReveal input = false) :
    Stops (n.tick input) := by
  rcases n.tick_cases input with ha | ⟨m, due, _, he⟩
  · generalize n.tick input = answer at ha
    intro t ht
    cases ha with
    | stopped | waits | repeated | ignored =>
      cases ht
      exact ⟨rfl, hn⟩
    | clicked hp | shown hp => simp [endsReveal, hp] at hi
    | ended | badIndex | astray | lost | notChoosing => cases ht
  · rw [he]
    exact m.stops_settle due m.plays_stretch

end Narrator

end Dialogue
