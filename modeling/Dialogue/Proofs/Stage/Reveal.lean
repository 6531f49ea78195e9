import Dialogue.Proofs.Play.Composition
import Dialogue.Proofs.Play.Faults
import Dialogue.Proofs.Stage.Scenery
import Dialogue.Proofs.Stage.Typing
namespace Dialogue

/-- A screen that keeps what it was told, each time with whether its text was shown in full by
then. -/
structure Attentive (σ : Type) where
  screen : σ
  told : List (ScreenCue × Bool)

instance {σ : Type} [Screen σ] : Screen (Attentive σ) where
  perform s x := ⟨Screen.perform s.screen x, s.told ++ [(x, Screen.isRevealed s.screen)]⟩
  isRevealed s := Screen.isRevealed s.screen
  update s dt := { s with screen := Screen.update s.screen dt }

theorem Attentive.map_screen {σ : Type} [Screen σ] :
    Screen.Map (Attentive.screen : Attentive σ → σ) :=
  ⟨fun _ _ => rfl, fun _ => rfl, fun _ _ => rfl⟩

def Cue.isText : Cue → Bool
  | .showText _ => true
  | _ => false

theorem Cue.isText_of_setsScene {c : Cue} (h : c.setsScene = true) : c.isText = false := by
  cases c with
  | showText content => cases h
  | _ => rfl

/-- A stretch shows no text, or one in the end, for which it then waits. -/
def Stretch.TextLast (r : Stretch) : Prop :=
  (∀ c ∈ r.cues, c.isText = false) ∨
    r.stop = .waits (.awaitingAdvance true) ∧
      ∃ silent content, r.cues = silent ++ [.showText content] ∧ ∀ c ∈ silent, c.isText = false

theorem Stretch.Composed.textLast {r : Stretch} (h : r.Composed) : r.TextLast := by
  obtain ⟨scene, last, hc, hs, hl⟩ := h
  have hq : ∀ c ∈ scene, c.isText = false := by
    intro c hm
    exact Cue.isText_of_setsScene (hs c hm)
  generalize hw : r.stop = stop at hl
  cases hl with
  | @text _ content _ => exact .inr ⟨hw, scene, content, hc, hq⟩
  | choice =>
    left
    rw [hc, List.forall_mem_append, List.forall_mem_singleton]
    exact ⟨hq, rfl⟩
  | ends =>
    left
    rwa [hc, List.append_nil]

namespace Attentive

/-- No text was put in the place of one that was still being shown. -/
def Patient {σ : Type} (x : Attentive σ) : Prop :=
  ∀ content revealed, (.revealText content, revealed) ∈ x.told → revealed = true

structure Calm (x : Attentive Console) : Prop where
  patient : x.Patient
  revealed : Screen.isRevealed x = true

variable {x : Attentive Console}

theorem Patient.perform (h : x.Patient) {y : ScreenCue}
    (hy : ∀ content, y = .revealText content → Screen.isRevealed x = true) :
    (Screen.perform x y : Attentive Console).Patient := by
  intro content revealed hm
  rcases List.mem_append.mp hm with hm | hm
  · exact h content revealed hm
  · obtain ⟨rfl, rfl⟩ := Prod.mk.inj (List.mem_singleton.mp hm)
    exact hy content rfl

theorem Patient.complete (h : x.Patient) :
    (Screen.perform x .completeReveal : Attentive Console).Calm :=
  ⟨h.perform nofun, Typewriter.isFinished_complete _⟩

theorem revealed_update (h : Screen.isRevealed x = true) (dt : Float32) :
    Screen.isRevealed (Screen.update x dt : Attentive Console) = true := by
  change (x.screen.typewriter.update dt).isFinished = true
  rw [Typewriter.update_of_finished h]
  exact h

theorem Calm.hear (h : x.Calm) {c : Cue} (hc : c.isText = false) : (Stage.hear x c).Calm := by
  cases c with
  | showText content => cases hc
  | completeReveal => exact h.patient.complete
  | showSpeaker | presentChoices | clearChoices | showBackground =>
    exact ⟨h.patient.perform nofun, h.revealed⟩
  | spawnActor | despawnActor | playGesture | changeExpression => exact h

theorem Calm.hearAll (h : x.Calm) {cues : List Cue} (hc : ∀ c ∈ cues, c.isText = false) :
    (cues.foldl Stage.hear x).Calm := by
  induction cues generalizing x with
  | nil => exact h
  | cons c cues ih =>
    rw [List.forall_mem_cons] at hc
    exact ih (h.hear hc.1) hc.2

theorem Calm.patient_text (h : x.Calm) (content : String) :
    (Stage.hear x (.showText content)).Patient :=
  h.patient.perform fun _ _ => h.revealed

end Attentive

def Reply.fault? : Reply → Option Fault
  | .phase (.error fault) => some fault
  | _ => none

namespace Stage

def faults {σ : Type} [Screen σ] (s : Stage σ) : List Instruction → List Fault
  | [] => []
  | i :: r => (s.carryOut i).2.fault?.toList ++ (s.carryOut i).1.faults r

/-- No text was cut off, and one not shown in full is being revealed, unless a fault has ended it.
-/
structure Uncut (past : List Fault) (s : Stage (Attentive Console)) : Prop where
  patient : s.screen.Patient
  revealed : s.narrator.phase ≠ .awaitingAdvance true →
    (s.narrator.phase = .finished → ∀ fault ∈ past, fault.isRefusal = true) →
      Screen.isRevealed s.screen = true

namespace Uncut

variable {past : List Fault} {s : Stage (Attentive Console)} {m : Narrator} {due : List Cue}
  {input : Option Input}

theorem of_calm (h : s.screen.Calm) : Uncut past s :=
  ⟨h.patient, fun _ _ => h.revealed⟩

theorem calm (h : Uncut past s) (hp : s.narrator.phase ≠ .awaitingAdvance true)
    (hf : s.narrator.phase ≠ .finished) : s.screen.Calm :=
  ⟨h.patient, h.revealed hp fun he => (hf he).elim⟩

theorem mono (h : Uncut past s) (later : List Fault) : Uncut (past ++ later) s where
  patient := h.patient
  revealed hp hf := h.revealed hp fun he fault hm =>
    hf he fault (List.mem_append_left later hm)

theorem calm_of_resumes (h : Uncut past s) (hr : s.narrator.Resumes input m due)
    (hi : input = some .revealFinished → Screen.isRevealed s.screen = true) :
    (due.foldl hear s.screen).Calm := by
  cases hr with
  | goes hw hf =>
    apply h.calm _ hf
    intro hp
    rw [hp] at hw
    cases hw
  | clicked => exact h.patient.complete
  | shown => exact ⟨h.patient, hi rfl⟩
  | confirmed hp => exact h.calm (by simp [hp]) (by simp [hp])
  | chosen hp =>
    have hc := h.calm (by simp [hp]) (by simp [hp])
    exact hc.hear (show Cue.isText .clearChoices = false from rfl)

theorem of_fault (h : s.screen.Patient) {n : Narrator} {fault : Fault} (hp : n.phase = .finished)
    (hf : fault.isRefusal = false) :
    Uncut (past ++ [fault]) { s with narrator := n } := by
  refine ⟨h, fun _ hall => ?_⟩
  have hm : fault ∈ past ++ [fault] := List.mem_append_right past (List.mem_singleton_self fault)
  rw [hall hp fault hm] at hf
  cases hf

theorem react_settle (h : Uncut past s) (hd : (due.foldl hear s.screen).Calm) (m : Narrator) :
    Uncut (past ++ (Reply.phase (s.react (m.settle due m.stretch)).2).fault?.toList)
      (s.react (m.settle due m.stretch)).1 := by
  rw [Narrator.settle]
  rcases m.plays_stretch.composed.textLast with hs | ⟨hw, silent, content, hc, hs⟩
  · have hcalm : ((due ++ m.stretch.cues).foldl hear s.screen).Calm := by
      rw [List.foldl_append]
      exact hd.hearAll hs
    cases he : m.stretch.stop with
    | waits | ends | leaves =>
      apply of_calm
      rw [screen_react]
      exact hcalm
    | fails fault =>
      rcases m.plays_stretch.fault_cases he with ⟨label, rfl⟩ | ⟨label, rfl⟩
      · exact of_fault h.patient rfl rfl
      · exact of_fault h.patient rfl rfl
  · rw [hw]
    refine ⟨?_, fun hp _ => (hp ?_).elim⟩
    · rw [screen_react, hc, ← List.append_assoc, List.foldl_append, List.foldl_append]
      exact (hd.hearAll hs).patient_text content
    · rw [narrator_react]

theorem answer (h : Uncut past s) {answer : Narrator × Except Fault Tick}
    (ha : s.narrator.Answers input answer)
    (hi : input = some .revealFinished → Screen.isRevealed s.screen = true) :
    Uncut (past ++ (Reply.phase (s.react answer).2).fault?.toList) (s.react answer).1 := by
  cases ha with
  | stopped | ended | waits | repeated | ignored | badIndex | astray | notChoosing => exact h.mono _
  | clicked => exact of_calm h.patient.complete
  | shown => exact of_calm ⟨h.patient, hi rfl⟩
  | lost => exact of_fault h.patient rfl rfl

/-- A tick cuts off no text, if the narrator is told only of texts that are shown in full. -/
theorem tick (h : Uncut past s)
    (hi : input = some .revealFinished → Screen.isRevealed s.screen = true) :
    Uncut (past ++ (Reply.phase (s.tick input).2).fault?.toList) (s.tick input).1 := by
  rw [tick_eq_react]
  rcases s.narrator.tick_cases input with ha | ⟨m, due, hr, he⟩
  · exact h.answer ha hi
  · rw [he]
    exact h.react_settle (h.calm_of_resumes hr hi) m

theorem prepare (h : Uncut past s) {i : Instruction} (hi : ∀ p, i ≠ .reload p) :
    Uncut past (s.prepare i) := by
  cases i with
  | start | advance | choose => exact h
  | update dt => exact ⟨h.patient, fun hp hf => Attentive.revealed_update (h.revealed hp hf) dt⟩
  | skip => exact of_calm h.patient.complete
  | takeChange => exact ⟨h.patient, h.revealed⟩
  | reload p => exact (hi p rfl).elim

end Uncut

theorem revealed_of_prompt {σ : Type} [Screen σ] {s : Stage σ} {i : Instruction}
    (h : s.prompt i = some (some .revealFinished)) : Screen.isRevealed s.screen = true := by
  cases i with
  | update | skip =>
    rw [prompt, notice] at h
    split at h
    · next hr => exact hr.2
    · cases h
  | start | advance | choose | takeChange | reload => cases h

namespace Uncut

variable {past : List Fault} {s : Stage (Attentive Console)}

theorem carryOut (h : Uncut past s) {i : Instruction} (hi : ∀ p, i ≠ .reload p) :
    Uncut (past ++ (s.carryOut i).2.fault?.toList) (s.carryOut i).1 := by
  have hp := h.prepare hi
  rw [carryOut_eq]
  cases ht : (s.prepare i).prompt i with
  | none => exact hp.mono _
  | some input =>
    apply hp.tick
    rintro rfl
    exact revealed_of_prompt ht

theorem follow (h : Uncut past s) {instructions : List Instruction}
    (hi : ∀ i ∈ instructions, ∀ p, i ≠ .reload p) :
    Uncut (past ++ s.faults instructions) (s.follow instructions) := by
  induction instructions generalizing past s with
  | nil => exact (List.append_nil past).symm ▸ h
  | cons i rest ih =>
    rw [List.forall_mem_cons] at hi
    have hr := ih (h.carryOut hi.1) hi.2
    rwa [List.append_assoc] at hr

end Uncut

theorem SameTale.faults_eq {σ τ : Type} [Screen σ] [Screen τ] {f : σ → τ} (hf : Screen.Map f)
    {s : Stage σ} {s' : Stage τ} (h : SameTale f s s') (instructions : List Instruction) :
    s'.faults instructions = s.faults instructions := by
  induction instructions generalizing s s' with
  | nil => rfl
  | cons i rest ih =>
    obtain ⟨hr, ht⟩ := h.carryOut hf i
    rw [faults, faults, hr, ih ht]

/-- No text is cut off: until another script is begun, one is only put on when the one before is
shown. -/
theorem texts_uncut (p : Program) (store : Store) (catalog : Catalog) (settings : StageSettings)
    {instructions : List Instruction} (hi : ∀ q, .reload q ∉ instructions) :
    let screen := Console.start settings.charsPerSecond
    let s := (build p store screen catalog settings).follow instructions
    let watched := ((build p store (⟨screen, []⟩ : Attentive Console) catalog settings).follow
      instructions).screen
    watched.screen = s.screen ∧
      (∀ content revealed, (.revealText content, revealed) ∈ watched.told → revealed = true) ∧
      (s.narrator.phase ≠ .awaitingAdvance true →
        (s.narrator.phase = .finished → ∀ fault ∈ (build p store screen catalog settings).faults
          instructions, fault.isRefusal = true) →
        Screen.isRevealed s.screen = true) := by
  intro screen s watched
  have hs : SameTale Attentive.screen (build p store ⟨screen, []⟩ catalog settings)
      (build p store screen catalog settings) := ⟨rfl, rfl, rfl⟩
  have hu : Uncut [] (build p store (⟨screen, []⟩ : Attentive Console) catalog settings) :=
    .of_calm ⟨nofun, rfl⟩
  have hr : ∀ i ∈ instructions, ∀ q, i ≠ .reload q := fun i hm q he => hi q (he ▸ hm)
  have hl := hu.follow hr
  have ht := hs.follow Attentive.map_screen instructions
  refine ⟨ht.screen.symm, hl.patient, ?_⟩
  rw [ht.narrator, ht.screen, hs.faults_eq Attentive.map_screen]
  exact hl.revealed

/-- Three clicks bring the script behind the second of two texts. -/
theorem texts_uncut_greeting :
    let p := Program.ofActions "inn" [.message "Good evening.", .message "Good night."] []
    let settings : StageSettings := { autoAdvance := false }
    let instructions : List Instruction := [.start, .choose 3, .advance, .advance, .advance]
    (∀ q, .reload q ∉ instructions) ∧
      Screen.isRevealed ((build p .empty (Console.start settings.charsPerSecond) (fun _ => true)
        settings).follow instructions).screen = true := by
  intro p settings instructions
  have hi : ∀ q, .reload q ∉ instructions := by simp [instructions]
  have hn : ((build p .empty (Console.start settings.charsPerSecond) (fun _ => true)
      settings).follow instructions).narrator = (Narrator.start p .empty false).after
        [none, some (.choose 3), some .advance, some .advance, some .advance] := by
    simp only [instructions, follow, List.foldl_cons, List.foldl_nil, carryOut, start, choose,
      advance, Prod.map_fst, tick_eq_react, id, narrator_react]
    rfl
  let n (position : Nat) (phase : Phase) : Narrator := ⟨⟨p, some position⟩, .empty, phase, false⟩
  have h₀ : ((Narrator.start p .empty false).tick none).1 = n 0 (.awaitingAdvance true) := by cbv
  have h₁ : ((n 0 (.awaitingAdvance true)).tick (some (.choose 3))).1 =
      n 0 (.awaitingAdvance true) := rfl
  have h₂ : ((n 0 (.awaitingAdvance true)).tick (some .advance)).1 =
      n 0 (.awaitingAdvance false) := rfl
  have h₃ : ((n 0 (.awaitingAdvance false)).tick (some .advance)).1 =
      n 1 (.awaitingAdvance true) := by cbv
  have h₄ : ((n 1 (.awaitingAdvance true)).tick (some .advance)).1 =
      n 1 (.awaitingAdvance false) := rfl
  have hp : ((Narrator.start p .empty false).after
      [none, some (.choose 3), some .advance, some .advance, some .advance]).phase =
        .awaitingAdvance false := by
    simp only [Narrator.after, List.foldl_cons, List.foldl_nil, h₀, h₁, h₂, h₃, h₄, n]
  refine ⟨hi, (texts_uncut p .empty (fun _ => true) settings hi).2.2 ?_ ?_⟩
  · rw [hn, hp]
    simp
  · rw [hn, hp]
    intro he
    cases he

end Stage

end Dialogue
