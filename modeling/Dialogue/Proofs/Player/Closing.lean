import Dialogue.Proofs.Player.Turns
namespace Dialogue

/-- What the last turn of a play tells: the script was over, no steps were left, or the reader had
gone. -/
def Turn.Closes (t : Turn) : Prop :=
  match t.move with
  | .conclude =>
    t.player.phase = .finished ∧ t.player.stage.change = none ∧ t.said = ["（完）\n"]
  | .halt => t.player.steps = t.player.options.maxSteps
  | .quit => t.player.phase.isWaiting = true ∧ t.player.options.auto = false
  | _ => False

theorem Player.Acts.said_of_conclude {p : Player} {d : Disk} {input rest : List InputLine}
    {said : List String} {o : Outcome} (h : p.Acts d input .conclude said o rest) :
    said = ["（完）\n"] := by
  cases h
  rfl

namespace Turn.Comes

variable {t : Turn} {d : Disk} {p : Player} {input : List InputLine} {k : Nat} {s : Summary}

theorem closes (h : t.Comes d p input k) (ho : t.outcome = .over s) : t.Closes := by
  obtain ⟨lines, rest, _, ha⟩ := h.acts
  have hy := h.yields
  rw [ho] at hy
  rw [Closes]
  generalize hm : t.move = move at hy ha
  cases hy with
  | halt hs => exact Nat.le_antisymm h.le hs
  | conclude _ hp hc => exact ⟨hp, hc, ha.said_of_conclude⟩
  | quit _ hw hi => exact ⟨hw, hi⟩

theorem summary_eq (h : t.Comes d p input k) (ho : t.outcome = .over s) :
    s.completed = t.player.summary.completed ∧ s.scripts = t.player.scripts := by
  have hy := h.yields
  rw [ho] at hy
  generalize t.move = move at hy
  cases hy <;> exact ⟨rfl, rfl⟩

theorem completed_iff (h : t.Comes d p input k) (ho : t.outcome = .over s) :
    s.completed = true ↔ t.move = .conclude ∨ t.move = .halt ∧ t.player.phase = .finished := by
  have hc := h.closes ho
  rw [(h.summary_eq ho).1, h.ready.completed]
  rw [Closes] at hc
  cases hm : t.move with
  | conclude =>
    rw [hm] at hc
    simp [hc.1]
  | halt => simp
  | quit =>
    rw [hm] at hc
    have hf : t.player.phase ≠ .finished := by
      intro he
      rw [he] at hc
      cases hc.1
    simp [hf]
  | stumble | proceed | take | travel =>
    rw [hm] at hc
    exact hc.elim

end Turn.Comes

namespace Player

/-- A play is said to be completed if its end is told, or if steps ran out when a script was over.
-/
theorem run_completed {config : Config} {options : PlayOptions} {d : Disk} {path : String}
    {input : List InputLine} {out : List String} {s : Summary}
    (h : run config options d path input = (out, .ok s)) :
    ∃ before last, Plays d (begin config options d path) input (before ++ [last]) (.ok s) ∧
      out = (before ++ [last]).flatMap Turn.lines ∧ last.outcome = .over s ∧ last.Closes ∧
      s.scripts.getLast? = some last.player.stage.narrator.cursor.program.id ∧
      (s.completed = true ↔
        last.move = .conclude ∨ last.move = .halt ∧ last.player.phase = .finished) := by
  obtain ⟨turns, hp, hout⟩ := run_plays config options d path input
  rw [h] at hp hout
  have hb := begins config options d path
  generalize begin config options d path = o at hp hb
  cases hb with
  | unread | unseen | lost => cases hp
  | @stop p hr _ hs =>
    obtain ⟨before, last, rfl, _, hl⟩ := hp.last rfl
    have hlast : (before ++ [last])[before.length]? = some last := by simp
    have hc := hp.comes rfl hr (by omega) hlast
    rcases hl with ⟨_, he, ho⟩ | ⟨_, he, _⟩
    · cases he
      refine ⟨before, last, hp, hout, ho, hc.closes ho, ?_, hc.completed_iff ho⟩
      rw [(hc.summary_eq ho).2]
      exact hc.ready.script
    · cases he

def circle : Program :=
  .parse "scripts/a.txt" "[scene file=a]"

def circleDisk : Disk :=
  .ofFound [("scripts/a.txt", .ok (.file "[scene file=a]".toUTF8))]

theorem tick_circle (s : Store) (b : Bool) : ∃ c,
    (Narrator.start circle s b).tick none =
      (⟨c, s, .finished, b⟩, .ok ⟨[], .finished, some ⟨"a", none⟩⟩) := by
  have hp : (Cursor.start circle).peek? = some (.scene "a" none) := by decide +kernel
  have hs : (Narrator.start circle s b).stretch =
      ⟨[], (Cursor.start circle).reached, s, .leaves ⟨"a", none⟩⟩ := by
    rw [Narrator.stretch, Narrator.start, Cursor.play_some hp]
    rfl
  rw [Narrator.tick_of_play (Narrator.opening_none (by simp [Narrator.start])), hs]
  exact ⟨_, rfl⟩

/-- A player that has come to the end of the script, behind which the script begins again. -/
structure Circling (p : Player) : Prop where
  config : p.config = {}
  store : p.stage.narrator.store = .empty
  pending : p.stage.screen.pending = []
  phase : p.phase = .finished
  change : p.stage.change = some ⟨"a", none⟩
  ended : p.stage.narrator.phase = .finished

theorem circling_resume {p : Player} {s : Stage Console} {b : Bool} (hc : p.config = {})
    (hn : s.narrator = .start circle .empty b) (hp : s.screen.pending = []) :
    ∃ q, p.resume (s.tick none) = .goesOn q ∧ q.Circling ∧ q.options = p.options ∧
      q.steps = p.steps ∧ q.scripts = p.scripts := by
  obtain ⟨c, ht⟩ := tick_circle .empty b
  rw [Stage.tick_eq_react, hn, ht]
  exact ⟨_, rfl, ⟨hc, rfl, hp, rfl, rfl, rfl⟩, rfl, rfl, rfl⟩

theorem Circling.step {p : Player} (h : p.Circling) (hs : p.steps < p.options.maxSteps)
    (input : List InputLine) :
    ∃ q, p.step circleDisk input = ([], .goesOn q, input) ∧ q.Circling ∧
      q.options = p.options ∧ q.steps = p.steps + 1 ∧
        q.scripts = p.scripts ++ ["scripts/a.txt"] := by
  have hpath : ({} : Config).scriptPath "a" = "scripts/a.txt" := by decide +kernel
  have hread : circleDisk.read "scripts/a.txt" = .ok "[scene file=a]" := by decide +kernel
  have hd : p.counted.destination ⟨"a", none⟩ = "scripts/a.txt" := by
    rw [destination, counted, printed, h.config]
    exact hpath
  have hturn : p.counted.turn = ([], .script p.counted.leaving "scripts/a.txt") := by
    rw [← hd]
    exact turn_of_change h.phase h.change
  have hn : p.stage.narrator.reset circle =
      .start circle .empty p.stage.narrator.autoAdvance := by
    rw [Narrator.reset, h.store]
    rfl
  obtain ⟨q, hq, hc, ho, hsteps, hscripts⟩ := circling_resume
    (p := { p.counted.leaving with scripts := p.scripts ++ ["scripts/a.txt"] })
    (s := ⟨p.stage.narrator.reset circle, p.stage.director.clear,
      Screen.perform p.counted.stage.screen .clearChoices, none⟩) h.config hn rfl
  have hload : p.counted.leaving.load "scripts/a.txt" (.ok "[scene file=a]") = .goesOn q := hq
  refine ⟨q, ?_, hc, ho, hsteps, hscripts⟩
  simp only [step_of_turn hs, hturn, hread, hload, shown, h.pending, List.map_nil, List.append_nil]

theorem Circling.play {p : Player} (h : p.Circling) {k : Nat}
    (hk : p.options.maxSteps = p.steps + k) (input : List InputLine) :
    play circleDisk (k + 1) (.goesOn p) input =
      ([], .ok ⟨p.scripts ++ List.replicate k "scripts/a.txt", p.options.maxSteps, .empty,
        true⟩) := by
  induction k generalizing p with
  | zero =>
    rw [Player.play, step_of_halt (Nat.le_of_eq hk)]
    simp [shown, h.pending, summary, h.store, Narrator.isFinished, h.ended, hk]
  | succ k ih =>
    obtain ⟨q, hq, hc, ho, hs, hscripts⟩ := h.step (by omega) input
    rw [Player.play, hq]
    simp only
    rw [ih hc (by rw [ho, hs]; omega), ho, hscripts, List.append_assoc]
    rfl

/-- A script that leads back to itself for ever is said to be completed when its player is stopped,
however many steps there are. -/
theorem run_circle (options : PlayOptions) (input : List InputLine) :
    run {} options circleDisk "scripts/a.txt" input =
      ([], .ok ⟨List.replicate (options.maxSteps + 1) "scripts/a.txt", options.maxSteps, .empty,
        true⟩) := by
  have hread : circleDisk.read "scripts/a.txt" = .ok "[scene file=a]" := by decide +kernel
  obtain ⟨p, hp, hc, ho, hs, hscripts⟩ := circling_resume
    (p := ⟨{}, options, .build circle .empty (.start ({} : Config).stage.charsPerSecond) .all
      ({} : Config).stage, .idle, 0, options.choices, ["scripts/a.txt"]⟩)
    (s := .build circle .empty (.start ({} : Config).stage.charsPerSecond) .all
      ({} : Config).stage) rfl rfl rfl
  have hb : begin {} options circleDisk "scripts/a.txt" = .goesOn p := by
    rw [begin, hread]
    exact hp
  rw [run, hb, hc.play (by rw [ho, hs, Nat.zero_add]) input, ho, hscripts]
  rfl

theorem run_completed_circle : ∃ before last,
    Plays circleDisk (begin {} { auto := true, maxSteps := 3 } circleDisk "scripts/a.txt") []
        (before ++ [last]) (.ok ⟨List.replicate 4 "scripts/a.txt", 3, .empty, true⟩) ∧
      last.Closes ∧ last.player.phase = .finished := by
  obtain ⟨before, last, hp, _, _, hc, _, hi⟩ :=
    run_completed (run_circle { auto := true, maxSteps := 3 } [])
  refine ⟨before, last, hp, hc, ?_⟩
  rcases hi.mp rfl with hm | ⟨_, hf⟩
  · rw [Turn.Closes, hm] at hc
    exact hc.1
  · exact hf

/-- A play that is said to be completed when no steps are left, with nothing printed. -/
theorem completed_on_halt :
    let options : PlayOptions := { auto := true, maxSteps := 3 }
    let played := run {} options circleDisk "scripts/a.txt" []
    played.1 = [] ∧ ∃ s, played.2 = .ok s ∧ s.steps = options.maxSteps ∧ s.completed = true := by
  intro options played
  have hp : played = _ := run_circle options []
  rw [hp]
  exact ⟨rfl, _, rfl, rfl, rfl⟩

end Player

end Dialogue
