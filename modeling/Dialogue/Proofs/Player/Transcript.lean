import Dialogue.Player
import Dialogue.Proofs.Stage.Agreement
namespace Dialogue

/-- The pictures that the settings name, if they name any, can be looked through. -/
def Config.Scannable (c : Config) (d : Disk) : Prop :=
  ∀ dir, c.charactersDir = some dir → ∃ names, d.pictures dir = .ok names

theorem Config.Scannable.exists_catalog {c : Config} {d : Disk} (h : c.Scannable d) :
    ∃ catalog, c.catalog d = .ok catalog := by
  rw [catalog]
  cases hc : c.charactersDir with
  | none => exact ⟨_, rfl⟩
  | some dir =>
    obtain ⟨names, hn⟩ := h dir hc
    simp only [hn]
    exact ⟨_, rfl⟩

namespace Player

/-- The players stand at the same stop of the same play, whatever their settings are. -/
structure Agrees (p p' : Player) : Prop where
  root : p.config.scriptsRoot = p'.config.scriptsRoot
  options : p.options = p'.options
  stage : p.stage.Agrees p'.stage
  phase : p.phase = p'.phase
  steps : p.steps = p'.steps
  picks : p.picks = p'.picks
  scripts : p.scripts = p'.scripts

/-- A player stands where the narrator does, and not at the end of a text. -/
structure AtStop (p : Player) : Prop where
  narrator : p.stage.narrator.phase = p.phase
  phase : p.phase ≠ .awaitingAdvance false

end Player

inductive Outcome.Agrees : Outcome → Outcome → Prop
  | over (summary : Summary) : Agrees (.over summary) (.over summary)
  | failed (fault : PlayFault) : Agrees (.failed fault) (.failed fault)
  | goesOn {p p' : Player} (h : p.Agrees p') (hs : p.AtStop) : Agrees (.goesOn p) (.goesOn p')

inductive Need.Agrees : Need → Need → Prop
  | nothing {o o' : Outcome} (h : o.Agrees o') : Agrees (.nothing o) (.nothing o')
  | line {p p' : Player} (h : p.Agrees p') (hs : p.AtStop) (hw : p.phase.isWaiting = true) :
    Agrees (.line p) (.line p')
  | script {p p' : Player} (h : p.Agrees p') (path : String) :
    Agrees (.script p path) (.script p' path)

namespace Player

variable {p p' : Player}

theorem Agrees.resume (h : p.Agrees p') {r r' : Stage Console × Except Fault Phase}
    (hr : Stage.Meet r r') : (p.resume r).Agrees (p'.resume r') := by
  obtain ⟨stage, answer⟩ := r
  obtain ⟨stage', answer'⟩ := r'
  obtain ⟨ha, hs, hstop⟩ := hr
  cases ha
  cases answer with
  | error fault => exact .failed (.narration fault)
  | ok phase =>
    obtain ⟨hp, hne⟩ := hstop phase rfl
    exact .goesOn ⟨h.root, h.options, hs, rfl, h.steps, h.picks, h.scripts⟩ ⟨hp, hne⟩

/-- To show a text in full and to go on does not depend on whether the narrator goes on by itself.
-/
theorem click_eq (h : p.stage.narrator.phase = .awaitingAdvance true) :
    p.click = p.resume (p.stage.shownInFull.react (p.stage.narrator.playOn [])) := by
  have hr : p.stage.narrator.endsReveal (some .revealFinished) = true := by
    simp [Narrator.endsReveal, h]
  have hs := Stage.skip_eq h
  rw [Narrator.tick_of_endsReveal hr] at hs
  rw [click, hs]
  by_cases ha : p.stage.narrator.autoAdvance = true
  · rw [if_pos ha]
    split
    · next stage he =>
      -- What is played on stops elsewhere.
      obtain ⟨t, ht, hp⟩ := Stage.tick_of_react (congrArg Prod.snd he)
      exact ((p.stage.narrator.stops_playOn [] t ht).2 hp).elim
    · rfl
  · rw [if_neg ha]
    change p.resume (Stage.advance _) = _
    rw [Stage.advance, Stage.tick_eq_react, Narrator.tick_of_revealed rfl]
    rfl

theorem AtStop.narrator_phase (hs : p.AtStop) {revealing : Bool}
    (hp : p.phase = .awaitingAdvance revealing) :
    p.stage.narrator.phase = .awaitingAdvance true := by
  rw [hs.narrator, hp]
  cases revealing with
  | true => rfl
  | false => exact (hs.phase hp).elim

theorem Agrees.click (h : p.Agrees p') (hs : p.AtStop) {revealing : Bool}
    (hp : p.phase = .awaitingAdvance revealing) : p.click.Agrees p'.click := by
  have hn := hs.narrator_phase hp
  have hn' : p'.stage.narrator.phase = .awaitingAdvance true := by
    obtain ⟨b, hb⟩ := h.stage.narrator
    rw [hb]
    exact hn
  obtain ⟨hr, ha⟩ := h.stage.narrator.playOn []
  rw [click_eq hn, click_eq hn']
  exact h.resume (h.stage.shownInFull.react hr ha (Narrator.stops_playOn _ []))

theorem Agrees.choose (h : p.Agrees p') (hs : p.AtStop) (index : Nat) :
    (p.choose index).1 = (p'.choose index).1 ∧
      (p.choose index).2.Agrees (p'.choose index).2 := by
  have hm : Stage.Meet (p.stage.choose index) (p'.stage.choose index) := by
    apply h.stage.tick
    · rw [hs.narrator]
      exact hs.phase
    · simp [Narrator.endsReveal]
  rw [Player.choose, Player.choose, Console.choices_untimed h.stage.screen]
  generalize p.stage.choose index = r at hm
  generalize p'.stage.choose index = r' at hm
  obtain ⟨stage, answer⟩ := r
  obtain ⟨stage', answer'⟩ := r'
  obtain ⟨ha, hst, hstop⟩ := hm
  cases ha
  cases answer with
  | error fault => exact ⟨rfl, .failed (.choice index fault)⟩
  | ok phase =>
    obtain ⟨hp, hne⟩ := hstop phase rfl
    exact ⟨rfl, .goesOn ⟨h.root, h.options, hst, rfl, h.steps, h.picks, h.scripts⟩ ⟨hp, hne⟩⟩

theorem Agrees.pick (h : p.Agrees p') (hs : p.AtStop) :
    p.pick.1 = p'.pick.1 ∧ p.pick.2.Agrees p'.pick.2 := by
  rw [Player.pick, Player.pick, ← h.picks]
  cases p.picks with
  | nil => exact h.choose hs 0
  | cons index picks =>
    have hp : Agrees { p with picks := picks } { p' with picks := picks } :=
      ⟨h.root, h.options, h.stage, h.phase, h.steps, rfl, h.scripts⟩
    exact hp.choose ⟨hs.narrator, hs.phase⟩ index

theorem Agrees.summary_eq (h : p.Agrees p') : p.summary = p'.summary := by
  obtain ⟨b, hb⟩ := h.stage.narrator
  rw [summary, summary, hb, h.scripts, h.steps]
  rfl

theorem scriptPath_eq {c c' : Config} (h : c.scriptsRoot = c'.scriptsRoot) (name : String) :
    c.scriptPath name = c'.scriptPath name := by
  rw [Config.scriptPath, Config.scriptPath, h]

def turn (p : Player) : List String × Need :=
  match p.phase with
  | .awaitingAdvance _ => ([], if p.options.auto then .nothing p.click else .line p)
  | .awaitingChoice count =>
    if p.options.auto then (p.pick.1, .nothing p.pick.2) else ([prompt count], .line p)
  | .finished =>
    match p.stage.takeChange with
    | (none, _) => (["（完）\n"], .nothing (.over p.summary))
    | (some change, stage) =>
      ([], .script { p with stage := stage } (p.config.scriptPath (change.script.getD change.scene)))
  | _ => ([], .nothing (.over p.summary))

def printed (p : Player) : Player :=
  { p with stage := { p.stage with screen := p.stage.screen.drain.2 } }

theorem next_eq (p : Player) :
    let shown := p.stage.screen.drain.1.map (· ++ "\n")
    p.next = if p.options.maxSteps ≤ p.steps then (shown, .nothing (.over p.printed.summary))
      else { p.printed with steps := p.steps + 1 }.turn.map (shown ++ ·) id := by
  intro shown
  obtain ⟨config, options, stage, phase, steps, picks, scripts⟩ := p
  rw [next]
  dsimp only [printed]
  split
  · rfl
  · cases phase with
    | awaitingAdvance revealing => simp [turn, shown]
    | awaitingChoice count =>
      cases ha : options.auto <;> simp [turn, ha, shown]
    | finished =>
      simp only [turn]
      rcases Stage.takeChange _ with ⟨_ | change, s⟩
      · rfl
      · simp [shown]
    | idle | running => simp [turn, shown]

theorem Agrees.turn (h : p.Agrees p') (hs : p.AtStop) :
    p.turn.1 = p'.turn.1 ∧ p.turn.2.Agrees p'.turn.2 := by
  rw [Player.turn, Player.turn, ← h.phase, ← h.options, ← h.summary_eq]
  cases hp : p.phase with
  | awaitingAdvance revealing =>
    cases p.options.auto with
    | true => exact ⟨rfl, .nothing (h.click hs hp)⟩
    | false => exact ⟨rfl, .line h hs (by rw [hp]; rfl)⟩
  | awaitingChoice count =>
    obtain ⟨hsaid, ho⟩ := h.pick hs
    cases p.options.auto with
    | true => exact ⟨hsaid, .nothing ho⟩
    | false => exact ⟨rfl, .line h hs (by rw [hp]; rfl)⟩
  | finished =>
    obtain ⟨hc, ha⟩ := h.stage.takeChange
    generalize p.stage.takeChange = r at hc ha
    generalize p'.stage.takeChange = r' at hc ha
    obtain ⟨change, stage⟩ := r
    obtain ⟨change', stage'⟩ := r'
    cases hc
    cases change with
    | none => exact ⟨rfl, .nothing (.over p.summary)⟩
    | some change =>
      dsimp only
      rw [scriptPath_eq h.root]
      refine ⟨rfl, .script ?_ _⟩
      exact ⟨h.root, rfl, ha, rfl, h.steps, h.picks, h.scripts⟩
  | idle | running => exact ⟨rfl, .nothing (.over p.summary)⟩

theorem Agrees.next (h : p.Agrees p') (hs : p.AtStop) :
    p.next.1 = p'.next.1 ∧ p.next.2.Agrees p'.next.2 := by
  obtain ⟨hshown, hscreen⟩ := Console.drain_untimed h.stage.screen
  have hp : p.printed.Agrees p'.printed :=
    ⟨h.root, h.options, ⟨h.stage.narrator, hscreen, h.stage.change⟩, h.phase, h.steps, h.picks,
      h.scripts⟩
  have hq : Agrees { p.printed with steps := p.steps + 1 }
      { p'.printed with steps := p.steps + 1 } :=
    ⟨h.root, h.options, hp.stage, h.phase, rfl, h.picks, h.scripts⟩
  obtain ⟨hsaid, hneed⟩ := hq.turn ⟨hs.narrator, hs.phase⟩
  rw [next_eq, next_eq, ← h.options, ← h.steps, ← hshown, ← hp.summary_eq]
  split
  · exact ⟨rfl, .nothing (.over _)⟩
  · exact ⟨congrArg (_ ++ ·) hsaid, hneed⟩

theorem Agrees.answer (h : p.Agrees p') (hs : p.AtStop) (hw : p.phase.isWaiting = true)
    (line : InputLine) : (p.answer line).1 = (p'.answer line).1 ∧
      Option.Rel Outcome.Agrees (p.answer line).2 (p'.answer line).2 := by
  unfold Player.answer
  rw [← h.phase]
  cases line with
  | none => exact ⟨rfl, .some (.failed .unreadableInput)⟩
  | some text =>
    cases hp : p.phase with
    | idle | running | finished => simp [hp, Phase.isWaiting] at hw
    | awaitingAdvance revealing => exact ⟨rfl, .some (h.click hs hp)⟩
    | awaitingChoice count =>
      dsimp only
      cases Decimal.index? (Text.trim text.toList) with
      | none => exact ⟨rfl, .none⟩
      | some n =>
        obtain ⟨hsaid, ho⟩ := h.choose hs (n - 1)
        dsimp only
        split
        · exact ⟨hsaid, .some ho⟩
        · exact ⟨rfl, .none⟩

theorem Agrees.ask (h : p.Agrees p') (hs : p.AtStop) (hw : p.phase.isWaiting = true)
    (input : List InputLine) : (p.ask input).1 = (p'.ask input).1 ∧
      (p.ask input).2.1.Agrees (p'.ask input).2.1 ∧ (p.ask input).2.2 = (p'.ask input).2.2 := by
  induction input with
  | nil =>
    rw [ask_nil, ask_nil, ← h.summary_eq]
    exact ⟨rfl, .over _, rfl⟩
  | cons line rest ih =>
    have ha := h.answer hs hw line
    rw [Player.ask, Player.ask]
    generalize p.answer line = a at ha
    generalize p'.answer line = a' at ha
    obtain ⟨said, outcome⟩ := a
    obtain ⟨said', outcome'⟩ := a'
    obtain ⟨rfl, ho⟩ := ha
    cases ho with
    | some ho => exact ⟨rfl, ho, rfl⟩
    | none => exact ⟨congrArg (said ++ ·) ih.1, ih.2⟩

theorem Agrees.load (h : p.Agrees p') (path : String) (text : Except ReadFault String) :
    (p.load path text).Agrees (p'.load path text) := by
  cases text with
  | error e => exact .failed (.unreadableScript path e)
  | ok text =>
    have hp : Agrees { p with scripts := p.scripts ++ [path] }
        { p' with scripts := p'.scripts ++ [path] } :=
      ⟨h.root, h.options, h.stage, h.phase, h.steps, h.picks, congrArg (· ++ [path]) h.scripts⟩
    exact hp.resume (h.stage.reload (.parse path text))

theorem Agrees.step (h : p.Agrees p') (hs : p.AtStop) (d : Disk) (input : List InputLine) :
    (p.step d input).1 = (p'.step d input).1 ∧
      (p.step d input).2.1.Agrees (p'.step d input).2.1 ∧
      (p.step d input).2.2 = (p'.step d input).2.2 := by
  have hn := h.next hs
  rw [Player.step, Player.step]
  generalize p.next = a at hn
  generalize p'.next = a' at hn
  obtain ⟨shown, need⟩ := a
  obtain ⟨shown', need'⟩ := a'
  obtain ⟨rfl, hneed⟩ := hn
  cases hneed with
  | nothing ho => exact ⟨rfl, ho, rfl⟩
  | line hq hs hw =>
    obtain ⟨hsaid, ho, hrest⟩ := hq.ask hs hw input
    exact ⟨congrArg (shown ++ ·) hsaid, ho, hrest⟩
  | script hq path => exact ⟨rfl, hq.load path (d.read path), rfl⟩

theorem play_agrees (d : Disk) {o o' : Outcome} (h : o.Agrees o') (steps : Nat)
    (input : List InputLine) : play d steps o input = play d steps o' input := by
  induction steps generalizing o o' input with
  | zero =>
    rcases h with _ | _ | ⟨h, _⟩
    · rfl
    · rfl
    · rw [play, play, h.summary_eq]
  | succ steps ih =>
    rcases h with _ | _ | @⟨p, p', h, hs⟩
    · rfl
    · rfl
    · have hp := h.step hs d input
      rw [play, play]
      generalize p.step d input = a at hp
      generalize p'.step d input = a' at hp
      obtain ⟨said, outcome, rest⟩ := a
      obtain ⟨said', outcome', rest'⟩ := a'
      obtain ⟨rfl, ho, rfl⟩ := hp
      dsimp only at ho ⊢
      rw [ih ho]

theorem start_agrees {c c' : Config} (h : c.scriptsRoot = c'.scriptsRoot) (options : PlayOptions)
    (catalog catalog' : Catalog) (path text : String) :
    (start c options catalog path text).Agrees (start c' options catalog' path text) := by
  have hs : Stage.Agrees
      (.build (.parse path text) .empty (.start c.stage.charsPerSecond) catalog c.stage)
      (.build (.parse path text) .empty (.start c'.stage.charsPerSecond) catalog' c'.stage) :=
    ⟨⟨c'.stage.autoAdvance, rfl⟩, rfl, rfl⟩
  have hm : Stage.Meet (Stage.start _) (Stage.start _) :=
    hs.tick (by simp [Stage.build, Narrator.start]) (by simp [Narrator.endsReveal])
  have hp : Agrees ⟨c, options, _, .idle, 0, options.choices, [path]⟩
      ⟨c', options, _, .idle, 0, options.choices, [path]⟩ := ⟨h, rfl, hs, rfl, rfl, rfl, rfl⟩
  exact hp.resume hm

/-- What a play prints and comes to does not depend on the settings of the stage. -/
theorem run_settings {c c' : Config} {d : Disk} (hroot : c.scriptsRoot = c'.scriptsRoot)
    (hc : c.Scannable d) (hc' : c'.Scannable d) (options : PlayOptions) (path : String)
    (input : List InputLine) : run c options d path input = run c' options d path input := by
  rw [run, run]
  apply play_agrees
  rw [begin, begin]
  cases d.read path with
  | error e => exact .failed (.unreadableScript path e)
  | ok text =>
    obtain ⟨catalog, hk⟩ := hc.exists_catalog
    obtain ⟨catalog', hk'⟩ := hc'.exists_catalog
    rw [hk, hk']
    exact start_agrees hroot options catalog catalog' path text

/-- One player knows no pictures and goes on by itself; the other shows a text slowly and waits
behind it. -/
theorem run_settings_inn :
    let script := "[char img=mina id=mina enter=left]\nGood evening.\n[choices]\n* Stay > stay\n" ++
      "* Leave > leave\n[label stay]\n[var nights=1]\nA room for {nights} night.\n[label leave]"
    let d : Disk := .ofFound [("inn.txt", .ok (.file script.toUTF8)),
      ("pictures", .ok (.dir [("mina.png", .file .empty)]))]
    let usual : Config := {}
    let slow : Config := { startScript := "inn", charactersDir := some "pictures"
                           stage := { charsPerSecond := 2, actorDuration := 9, autoAdvance := false } }
    let options : PlayOptions := { maxSteps := 5 }
    let input : List InputLine := [some "\n", some "stay\n", some "1\n", some "\n"]
    (usual.scriptsRoot = slow.scriptsRoot ∧ usual.Scannable d ∧ slow.Scannable d) ∧
      run usual options d "inn.txt" input = run slow options d "inn.txt" input := by
  intro script d usual slow options input
  have hr : usual.scriptsRoot = slow.scriptsRoot := rfl
  have hu : usual.Scannable d := nofun
  have hs : slow.Scannable d := by
    intro dir hdir
    cases hdir
    exact ⟨["mina"], by decide +kernel⟩
  exact ⟨⟨hr, hu, hs⟩, run_settings hr hu hs options "inn.txt" input⟩

end Player

end Dialogue
