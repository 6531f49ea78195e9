import Dialogue.Proofs.Play.Cues
import Dialogue.Proofs.Stage.Prompts
namespace Dialogue

/-- The last of the lines that are to be printed list the choices on the screen. -/
def Console.Lists (c : Console) : Prop :=
  ∃ front, c.pending = front ++ choiceLines 1 c.choices

theorem Console.lists_perform (c : Console) (texts : List String) :
    (c.perform (.presentChoices texts)).Lists :=
  ⟨c.pending, rfl⟩

namespace Stage

/-- A script has come to a stop, with as many choices on the screen as there are to be taken. -/
structure Stands (s : Stage Console) (phase : Phase) : Prop where
  narrator : s.narrator.phase = phase
  coherent : s.narrator.Coherent
  begun : phase ≠ .idle
  revealing : phase ≠ .awaitingAdvance false
  shown : ∀ count, phase = .awaitingChoice count → s.screen.choices.length = count

structure Arrives (p : Program) (s : Stage Console) (phase : Phase) : Prop where
  stands : s.Stands phase
  program : s.narrator.cursor.program = p
  lists : ∀ count, phase = .awaitingChoice count → s.screen.Lists

/-- A program is played on up to a stop, unless there is a fault in the script. -/
inductive Lands (p : Program) : Stage Console × Except Fault Phase → Prop
  | stop {s phase} (h : Arrives p s phase) : Lands p (s, .ok phase)
  | fault {s fault} (h : fault.isRefusal = false) : Lands p (s, .error fault)

variable {s : Stage Console} {m : Narrator} {due : List Cue} {count index : Nat}

theorem screen_offered (s : Stage Console) {t : Tick} {cues : List Cue} {choices : List Choice}
    (h : t.cues = cues ++ [.presentChoices choices]) (n : Narrator) :
    (s.react (n, .ok t)).1.screen =
      (cues.foldl hear s.screen).perform (.presentChoices (choices.map Choice.text)) := by
  rw [screen_react, h, List.foldl_append]
  rfl

theorem arrives_settle {t : Tick} (h : (m.settle due m.stretch).2 = .ok t) :
    Arrives m.cursor.program (s.react ((m.settle due m.stretch).1, .ok t)).1 t.phase := by
  obtain ⟨hc, hp, hf⟩ := Narrator.settle_ok h
  obtain ⟨scene, last, hs, _, hl⟩ := m.plays_stretch.composed
  have hcloses : (m.settle due m.stretch).1.Closes last := Narrator.closes_settle hl hf
  have hn := narrator_react s ((m.settle due m.stretch).1, .ok t)
  have offered (count : Nat) (hw : t.phase = .awaitingChoice count) :
      ∃ choices, t.cues = (due ++ scene) ++ [.presentChoices choices] ∧
        choices.length = count := by
    obtain ⟨choices, _, rfl, hlen, _⟩ := (hcloses.choice count).mp (hp ▸ hw)
    exact ⟨choices, by rw [hc, hs, List.append_assoc], hlen⟩
  constructor
  · constructor
    · rw [hn, hp]
    · rw [hn]
      exact m.coherent_settle due m.plays_stretch
    · rw [hp]
      rcases hcloses.stops with h | ⟨_, h⟩ | h <;> simp [h]
    · exact (m.stops_settle due m.plays_stretch t h).2
    · intro count hw
      obtain ⟨choices, hcues, hlen⟩ := offered count hw
      rw [screen_offered s hcues, ← hlen]
      exact List.length_map Choice.text
  · rw [hn]
    exact m.program_settle due m.plays_stretch
  · intro count hw
    obtain ⟨choices, hcues, _⟩ := offered count hw
    rw [screen_offered s hcues]
    exact Console.lists_perform _ _

theorem lands_settle (s : Stage Console) (m : Narrator) (due : List Cue) :
    Lands m.cursor.program (s.react (m.settle due m.stretch)) := by
  cases hr : (m.settle due m.stretch).2 with
  | ok t =>
    have he : m.settle due m.stretch = ((m.settle due m.stretch).1, .ok t) := by rw [← hr]
    rw [he]
    exact .stop (arrives_settle hr)
  | error fault =>
    have he : m.settle due m.stretch = ((m.settle due m.stretch).1, .error fault) := by rw [← hr]
    rw [he]
    apply Lands.fault
    have hf := m.plays_stretch.fault_cases (Narrator.settle_fails.mp hr)
    rcases hf with ⟨_, rfl⟩ | ⟨_, rfl⟩ <;> rfl

theorem lands_tick {p : Program} (h : s.narrator.phase = .idle)
    (hp : s.narrator.cursor.program = p) : Lands p (s.tick none) := by
  have ho : s.narrator.opening none = .inr (s.narrator, []) := by
    rw [Narrator.opening_none (by simp [h])]
    simp [h, Phase.isWaiting]
  rw [tick_eq_react, Narrator.tick_of_play ho, ← hp]
  exact lands_settle s s.narrator []

theorem lands_reload (s : Stage Console) (p : Program) : Lands p (s.reload p) := by
  rw [reload]
  exact lands_tick rfl rfl

theorem lands_start (p : Program) (store : Store) (screen : Console) (catalog : Catalog)
    (settings : StageSettings) : Lands p (start (.build p store screen catalog settings)) := by
  rw [start]
  exact lands_tick rfl rfl

theorem lands_playOn (s : Stage Console) (n : Narrator) :
    Lands n.cursor.program (s.react (n.playOn [])) :=
  lands_settle s { n with phase := .running } []

theorem Stands.choose_refused (h : s.Stands (.awaitingChoice count)) (hi : count ≤ index) :
    s.choose index = (s, .error (.invalidChoice index count)) := by
  have hr : Narrator.Refusal s.narrator.phase (some (.choose index))
      (.invalidChoice index count) := by
    rw [h.narrator]
    exact .badIndex hi
  rw [choose, tick_eq_react, Narrator.tick_of_refusal hr]
  rfl

theorem Stands.lands_choose (h : s.Stands (.awaitingChoice count)) (hi : index < count) :
    Lands s.narrator.cursor.program (s.choose index) := by
  obtain ⟨_, o, _, _, ht⟩ := h.coherent.target_eq h.narrator hi
  have ho := Narrator.opening_choose h.narrator hi ht
  rw [choose, tick_eq_react]
  cases hj : s.narrator.cursor.jump? o.target with
  | some c =>
    simp only [hj] at ho
    rw [Narrator.tick_of_play ho, ← Cursor.program_jump hj]
    exact lands_settle s { s.narrator with cursor := c, phase := .running } [.clearChoices]
  | none =>
    simp only [hj] at ho
    rw [Narrator.tick_of_answer ho]
    exact .fault rfl

end Stage

end Dialogue
