import Dialogue.Proofs.Stage.Prompts
namespace Dialogue

/-- What there is to follow of a script: the answer, the screen with what it was told, and the
place. -/
structure Telling (σ : Type) where
  reply : Reply
  screen : Recorded σ
  narrator : Narrator

/-- A change of the screen that makes no difference to what is done with it. -/
structure Screen.Map {σ τ : Type} [Screen σ] [Screen τ] (f : σ → τ) : Prop where
  perform : ∀ s x, Screen.perform (f s) x = f (Screen.perform s x)
  isRevealed : ∀ s, Screen.isRevealed (f s) = Screen.isRevealed s
  update : ∀ s dt, Screen.update (f s) dt = f (Screen.update s dt)

theorem Screen.Map.id {σ : Type} [Screen σ] : Screen.Map (id : σ → σ) :=
  ⟨fun _ _ => rfl, fun _ => rfl, fun _ _ => rfl⟩

namespace Stage

def tellings {σ : Type} [Screen σ] (s : Stage (Recorded σ)) : List Instruction → List (Telling σ)
  | [] => []
  | i :: r =>
    let (s, reply) := s.unheard.carryOut i
    ⟨reply, s.screen, s.narrator⟩ :: s.tellings r

/-- The stages differ at most in their directors, who keep the actors, and as `f` says in their
screens. -/
structure SameTale {σ τ : Type} (f : σ → τ) (s : Stage σ) (s' : Stage τ) : Prop where
  narrator : s'.narrator = s.narrator
  screen : s'.screen = f s.screen
  change : s'.change = s.change

namespace SameTale

section

variable {σ τ : Type} [Screen σ] [Screen τ] {f : σ → τ} {s : Stage σ} {s' : Stage τ}

theorem perform (hf : Screen.Map f) (h : SameTale f s s') (c : Cue) :
    SameTale f (s.perform c) (s'.perform c) := by
  rw [perform_eq, perform_eq]
  cases c.receiver with
  | inl x =>
    refine ⟨h.narrator, ?_, h.change⟩
    change Screen.perform s'.screen x = _
    rw [h.screen, hf.perform]
  | inr o => exact ⟨h.narrator, h.screen, h.change⟩

theorem performAll (hf : Screen.Map f) (h : SameTale f s s') (cues : List Cue) :
    SameTale f (cues.foldl Stage.perform s) (cues.foldl Stage.perform s') := by
  induction cues generalizing s s' with
  | nil => exact h
  | cons c cues ih => exact ih (h.perform hf c)

theorem react (hf : Screen.Map f) (h : SameTale f s s') (x : Narrator × Except Fault Tick) :
    (s'.react x).2 = (s.react x).2 ∧ SameTale f (s.react x).1 (s'.react x).1 := by
  obtain ⟨n, fault | t⟩ := x
  · exact ⟨rfl, rfl, h.screen, h.change⟩
  · have hn : SameTale f { s with narrator := n } { s' with narrator := n } :=
      ⟨rfl, h.screen, h.change⟩
    have ht := hn.performAll hf t.cues
    exact ⟨rfl, ht.narrator, ht.screen, congrArg t.change.or ht.change⟩

theorem tick (hf : Screen.Map f) (h : SameTale f s s') (input : Option Input) :
    (s'.tick input).2 = (s.tick input).2 ∧ SameTale f (s.tick input).1 (s'.tick input).1 := by
  rw [tick_eq_react, tick_eq_react, h.narrator]
  exact h.react hf _

theorem prepare (hf : Screen.Map f) (h : SameTale f s s') (i : Instruction) :
    SameTale f (s.prepare i) (s'.prepare i) := by
  have hs (x : ScreenCue) : Screen.perform s'.screen x = f (Screen.perform s.screen x) := by
    rw [h.screen, hf.perform]
  cases i with
  | start | advance | choose => exact h
  | update dt =>
    refine ⟨h.narrator, ?_, h.change⟩
    change Screen.update s'.screen dt = _
    rw [h.screen, hf.update]
    rfl
  | skip => exact ⟨h.narrator, hs .completeReveal, h.change⟩
  | takeChange => exact ⟨h.narrator, h.screen, rfl⟩
  | reload p => exact ⟨congrArg (Narrator.reset · p) h.narrator, hs .clearChoices, rfl⟩

theorem prompt_eq (hf : Screen.Map f) (h : SameTale f s s') (i : Instruction) :
    s'.prompt i = s.prompt i := by
  cases i with
  | update | skip => rw [prompt, prompt, notice, notice, h.narrator, h.screen, hf.isRevealed]
  | start | advance | choose | takeChange | reload => rfl

omit [Screen σ] [Screen τ] in
theorem unprompted_eq (h : SameTale f s s') (i : Instruction) :
    s'.unprompted i = s.unprompted i := by
  cases i with
  | takeChange => exact congrArg Reply.change h.change
  | start | update | advance | choose | skip | reload =>
    exact congrArg (Reply.phase ∘ Except.ok ∘ Narrator.phase) h.narrator

theorem carryOut (hf : Screen.Map f) (h : SameTale f s s') (i : Instruction) :
    (s'.carryOut i).2 = (s.carryOut i).2 ∧ SameTale f (s.carryOut i).1 (s'.carryOut i).1 := by
  have hp := h.prepare hf i
  rw [carryOut_eq, carryOut_eq, hp.prompt_eq hf i]
  cases (s.prepare i).prompt i with
  | none => exact ⟨h.unprompted_eq i, hp⟩
  | some input => exact (hp.tick hf input).imp_left (congrArg Reply.phase)

theorem follow (hf : Screen.Map f) (h : SameTale f s s') (instructions : List Instruction) :
    SameTale f (s.follow instructions) (s'.follow instructions) := by
  induction instructions generalizing s s' with
  | nil => exact h
  | cons i rest ih => exact ih (h.carryOut hf i).2

end

variable {σ : Type} [Screen σ] {s s' : Stage (Recorded σ)}

omit [Screen σ] in
theorem unheard (h : SameTale id s s') : SameTale id s.unheard s'.unheard :=
  ⟨h.narrator, congrArg (fun screen : Recorded σ => { screen with cues := [] }) h.screen, h.change⟩

theorem tellings_eq (h : SameTale id s s') (instructions : List Instruction) :
    s'.tellings instructions = s.tellings instructions := by
  induction instructions generalizing s s' with
  | nil => rfl
  | cons i rest ih =>
    obtain ⟨hr, ht⟩ := h.unheard.carryOut .id i
    rw [tellings, tellings]
    dsimp only
    rw [hr, ht.screen, ht.narrator, ih ht, id]

end SameTale

/-- What goes wrong with the actors does not disturb the script: a stage answers, and tells its
screen, the same. -/
theorem tellings_scenery (p : Program) (store : Store) (settings : StageSettings)
    (catalog catalog' : Catalog) (actorDuration actorWidth moveDistance : Float32)
    (instructions : List Instruction) :
    let screen : Recorded Console := ⟨.start settings.charsPerSecond, []⟩
    let settings' := { settings with actorDuration, actorWidth, moveDistance }
    (build p store screen catalog' settings').tellings instructions =
      (build p store screen catalog settings).tellings instructions := by
  intro screen settings'
  apply SameTale.tellings_eq
  exact ⟨rfl, rfl, rfl⟩

end Stage

end Dialogue
