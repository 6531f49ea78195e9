import Dialogue.Proofs.Play.Composition
import Dialogue.Proofs.Play.Faults
import Dialogue.Proofs.Stage.Instructions
namespace Dialogue

theorem Stretch.Composed.exists_text {r : Stretch} (h : r.Composed) {revealing : Bool}
    (hs : r.stop = .waits (.awaitingAdvance revealing)) : ∃ content, .showText content ∈ r.cues := by
  obtain ⟨scene, last, hc, _, hl⟩ := h
  rw [hs] at hl
  cases hl with
  | @text _ content _ =>
    rw [hc]
    exact ⟨content, List.mem_append_right scene List.mem_cons_self⟩
  | ends hn => exact (hn _ rfl).elim

theorem Narrator.shows_of_tick {n m : Narrator} {input : Option Input} {t : Tick}
    (h : n.tick input = (m, .ok t)) (hp : m.phase = .awaitingAdvance true) :
    n.phase = .awaitingAdvance true ∨ ∃ content, .showText content ∈ t.cues := by
  rcases n.tick_cases input with ha | ⟨k, due, hr, he⟩
  · rw [h] at ha
    cases ha with
    | stopped | waits | repeated | ignored => exact .inl hp
    | clicked | shown => cases hp
  · rw [h, settle] at he
    cases hs : k.stretch.stop with
    | waits phase =>
      rw [hs] at he
      cases he
      obtain rfl : phase = .awaitingAdvance true := hp
      obtain ⟨content, hm⟩ := k.plays_stretch.composed.exists_text hs
      exact .inr ⟨content, List.mem_append_right due hm⟩
    | ends | leaves | fails =>
      rw [hs] at he
      cases he <;> cases hp

theorem Narrator.phase_of_fault {n m : Narrator} {input : Option Input} {fault : Fault}
    (h : n.tick input = (m, .error fault)) (hp : m.phase = .awaitingAdvance true) :
    n.phase = .awaitingAdvance true := by
  obtain rfl : (n.tick input).1 = m := by rw [h]
  have hf : (n.tick input).2 = .error fault := by rw [h]
  rcases tick_of_fault hf with he | he
  · rwa [he] at hp
  · cases hp.symm.trans he

theorem Typewriter.start_congr {t t' : Typewriter} (h : t.charsPerSecond = t'.charsPerSecond)
    (content : String) : t.start content = t'.start content := by
  simp only [start, complete, h]

theorem Console.typewriter_perform {c c' : Console} (h : c.typewriter = c'.typewriter)
    (x : ScreenCue) : (c.perform x).typewriter = (c'.perform x).typewriter := by
  cases x <;> simp only [perform, print, h]

namespace Stage

/-- Two stages differ only in the numbering of tweens, in the text shown last, and in what is
printed. -/
structure Alongside (pre : List ScreenCue) (s s' : Stage (Recorded Console)) : Prop where
  narrator : s.narrator = s'.narrator
  director : ∃ n, s.director = s'.director.shift n
  change : s.change = s'.change
  cues : s.screen.cues = pre ++ s'.screen.cues
  speed : s.screen.screen.typewriter.charsPerSecond = s'.screen.screen.typewriter.charsPerSecond

/-- Nor do they differ in a text that is being revealed. -/
structure Mirrors (pre : List ScreenCue) (s s' : Stage (Recorded Console)) : Prop extends
    Alongside pre s s' where
  revealed : s.narrator.phase = .awaitingAdvance true →
    s.screen.screen.typewriter = s'.screen.screen.typewriter

variable {pre : List ScreenCue} {s s' : Stage (Recorded Console)}

namespace Alongside

theorem obey (h : Alongside pre s s') (o : Order) :
    Alongside pre { s with director := (s.director.obey o).1 }
      { s' with director := (s'.director.obey o).1 } where
  narrator := h.narrator
  director := by
    obtain ⟨n, hd⟩ := h.director
    exact ⟨n, by rw [hd, Director.obey_shift, Prod.map_fst]⟩
  change := h.change
  cues := h.cues
  speed := h.speed

theorem tell (h : Alongside pre s s') (x : ScreenCue) :
    Alongside pre { s with screen := Screen.perform s.screen x }
      { s' with screen := Screen.perform s'.screen x } where
  narrator := h.narrator
  director := h.director
  change := h.change
  cues := by
    change s.screen.cues ++ [x] = pre ++ (s'.screen.cues ++ [x])
    rw [h.cues, List.append_assoc]
  speed := by
    change (s.screen.screen.perform x).typewriter.charsPerSecond =
      (s'.screen.screen.perform x).typewriter.charsPerSecond
    rw [speed_perform, speed_perform, h.speed]

theorem perform (h : Alongside pre s s') (c : Cue) :
    Alongside pre (s.perform c) (s'.perform c) := by
  rw [perform_eq, perform_eq]
  cases c.receiver with
  | inl x => exact h.tell x
  | inr o => exact h.obey o

theorem performAll (h : Alongside pre s s') (cues : List Cue) :
    Alongside pre (cues.foldl Stage.perform s) (cues.foldl Stage.perform s') := by
  induction cues generalizing s s' with
  | nil => exact h
  | cons c cues ih => exact ih (h.perform c)

theorem typewriter_perform
    (ht : s.screen.screen.typewriter = s'.screen.screen.typewriter) (c : Cue) :
    (s.perform c).screen.screen.typewriter = (s'.perform c).screen.screen.typewriter := by
  rw [perform_eq, perform_eq]
  cases c.receiver with
  | inl x => exact Console.typewriter_perform ht x
  | inr o => exact ht

theorem typewriter_performAll (h : Alongside pre s s') {cues : List Cue}
    (ht : s.screen.screen.typewriter = s'.screen.screen.typewriter ∨
      ∃ content, .showText content ∈ cues) :
    (cues.foldl Stage.perform s).screen.screen.typewriter =
      (cues.foldl Stage.perform s').screen.screen.typewriter := by
  induction cues generalizing s s' with
  | nil =>
    rcases ht with ht | ⟨content, hm⟩
    · exact ht
    · cases hm
  | cons c cues ih =>
    apply ih (h.perform c)
    rcases ht with ht | ⟨content, hm⟩
    · exact .inl (typewriter_perform ht c)
    · rcases List.mem_cons.mp hm with rfl | hm
      · exact .inl (Typewriter.start_congr h.speed content)
      · exact .inr ⟨content, hm⟩

end Alongside

namespace Mirrors

theorem tick (h : Mirrors pre s s') (input : Option Input) :
    (s.tick input).2 = (s'.tick input).2 ∧
      Mirrors pre (s.tick input).1 (s'.tick input).1 := by
  rw [Stage.tick, Stage.tick, ← h.narrator]
  rcases hn : s.narrator.tick input with ⟨m, fault | t⟩
  · refine ⟨rfl, ⟨rfl, h.director, h.change, h.cues, h.speed⟩, ?_⟩
    intro hp
    exact h.revealed (Narrator.phase_of_fault hn hp)
  · have ha : Alongside pre { s with narrator := m } { s' with narrator := m } :=
      ⟨rfl, h.director, h.change, h.cues, h.speed⟩
    have hall := ha.performAll t.cues
    refine ⟨rfl, ⟨hall.narrator, hall.director, ?_, hall.cues, hall.speed⟩, ?_⟩
    · exact congrArg t.change.or hall.change
    · intro hp
      have hp : m.phase = .awaitingAdvance true := by
        rw [← hp]
        exact congrArg Narrator.phase (narrator_perform { s with narrator := m } t.cues).symm
      exact ha.typewriter_performAll ((Narrator.shows_of_tick hn hp).imp_left h.revealed)

theorem sync (h : Mirrors pre s s') :
    s.sync.2 = s'.sync.2 ∧ Mirrors pre s.sync.1 s'.sync.1 := by
  have hr : (s.narrator.phase = .awaitingAdvance true ∧ Screen.isRevealed s.screen = true) ↔
      (s'.narrator.phase = .awaitingAdvance true ∧ Screen.isRevealed s'.screen = true) := by
    rw [← h.narrator]
    apply and_congr_right
    intro hp
    have ht : Screen.isRevealed s.screen = Screen.isRevealed s'.screen :=
      congrArg Typewriter.isFinished (h.revealed hp)
    rw [ht]
  rw [Stage.sync, Stage.sync]
  simp only [hr]
  split
  · exact h.tick _
  · exact ⟨by rw [h.narrator], h⟩

theorem update (h : Mirrors pre s s') (dt : Float32) :
    Mirrors pre
      { s with screen := Screen.update s.screen dt, director := s.director.update dt }
      { s' with screen := Screen.update s'.screen dt, director := s'.director.update dt } where
  narrator := h.narrator
  director := by
    obtain ⟨n, hd⟩ := h.director
    exact ⟨n, by rw [hd, Director.update_shift]⟩
  change := h.change
  cues := h.cues
  speed := by
    change (s.screen.screen.update dt).typewriter.charsPerSecond =
      (s'.screen.screen.update dt).typewriter.charsPerSecond
    rw [speed_update, speed_update, h.speed]
  revealed hp := congrArg (Typewriter.update · dt) (h.revealed hp)

theorem finish (h : Mirrors pre s s') :
    Mirrors pre
      { s with screen := Screen.perform s.screen .completeReveal
               director := s.director.completeAll }
      { s' with screen := Screen.perform s'.screen .completeReveal
                director := s'.director.completeAll } where
  toAlongside := (h.tell .completeReveal).obey .completeAll
  revealed hp := Console.typewriter_perform (h.revealed hp) .completeReveal

theorem carryOut (h : Mirrors pre s s') (i : Instruction) :
    (s.carryOut i).2 = (s'.carryOut i).2 ∧ Mirrors pre (s.carryOut i).1 (s'.carryOut i).1 := by
  cases i with
  | start => exact (h.tick none).imp_left (congrArg Reply.phase)
  | update dt => exact (h.update dt).sync.imp_left (congrArg Reply.phase)
  | advance => exact (h.tick _).imp_left (congrArg Reply.phase)
  | choose index => exact (h.tick _).imp_left (congrArg Reply.phase)
  | skip => exact h.finish.sync.imp_left (congrArg Reply.phase)
  | takeChange =>
    exact ⟨congrArg Reply.change h.change, ⟨h.narrator, h.director, rfl, h.cues, h.speed⟩,
      h.revealed⟩
  | reload p =>
    have ha := (h.tell .clearChoices).obey .clear
    have hm : Mirrors pre
        { s with narrator := s.narrator.reset p, director := s.director.clear, change := none
                 screen := Screen.perform s.screen .clearChoices }
        { s' with narrator := s'.narrator.reset p, director := s'.director.clear, change := none
                  screen := Screen.perform s'.screen .clearChoices } :=
      ⟨⟨congrArg (Narrator.reset · p) h.narrator, ha.director, rfl, ha.cues, ha.speed⟩, nofun⟩
    exact (hm.tick none).imp_left (congrArg Reply.phase)

theorem unheard (h : Mirrors pre s s') : Mirrors [] s.unheard s'.unheard :=
  ⟨⟨h.narrator, h.director, h.change, rfl, h.speed⟩, h.revealed⟩

theorem views_eq (h : Mirrors pre s s') (instructions : List Instruction) :
    s.views instructions = s'.views instructions := by
  induction instructions generalizing pre s s' with
  | nil => rfl
  | cons i rest ih =>
    obtain ⟨hr, hm⟩ := h.unheard.carryOut i
    obtain ⟨n, hd⟩ := hm.director
    have hcues : (s.unheard.carryOut i).1.screen.cues = (s'.unheard.carryOut i).1.screen.cues :=
      hm.cues
    rw [views, views]
    dsimp only
    rw [hr, hcues, hm.narrator, ih hm, hd]
    rfl

end Mirrors

/-- To load another program comes to the same as to build a new stage, but that open answers are
cleared first. -/
theorem views_reload (p : Program) (store : Store) (catalog : Catalog) (settings : StageSettings)
    (past : List Instruction) (q : Program) (following : List Instruction) :
    let screen : Recorded Console := ⟨.start settings.charsPerSecond, []⟩
    let s := (build p store screen catalog settings).follow past
    let fresh := build q s.narrator.store screen catalog settings
    s.views (.reload q :: following) = (fresh.views (.start :: following)).modifyHead
      fun view => { view with told := .clearChoices :: view.told } := by
  intro screen s fresh
  have hs : Configured catalog settings s := (Configured.build p store catalog settings).follow past
  have hm : Mirrors [.clearChoices]
      { s with narrator := s.narrator.reset q, director := s.director.clear, change := none
               screen := Screen.perform s.unheard.screen .clearChoices } fresh := by
    refine ⟨⟨?_, hs.director.clear_eq, rfl, rfl, ?_⟩, nofun⟩
    · rw [Narrator.reset, hs.autoAdvance]
      rfl
    · exact (speed_perform s.screen.screen .clearChoices).trans hs.speed
  obtain ⟨hr, ht⟩ := hm.tick none
  obtain ⟨n, hd⟩ := ht.director
  have hreload : s.unheard.carryOut (.reload q) = Prod.map id Reply.phase
      (tick { s with narrator := s.narrator.reset q, director := s.director.clear, change := none
                     screen := Screen.perform s.unheard.screen .clearChoices } none) := rfl
  have hstart : fresh.unheard.carryOut .start = Prod.map id Reply.phase (fresh.tick none) := rfl
  rw [views, views, hreload, hstart]
  simp only [Prod.map_apply', id_eq, List.modifyHead_cons, hr, ht.cues, ht.narrator, hd,
    ht.views_eq]
  rfl

end Stage

end Dialogue
