import Dialogue.Proofs.Player.Transcript
import Dialogue.Proofs.Stage.Arrival
namespace Dialogue

inductive Move where
  /-- No steps are left. -/
  | halt
  /-- The script is over, and this is said. -/
  | conclude
  /-- The reader has gone. -/
  | quit
  /-- The reader's line is not a text. -/
  | stumble
  | proceed
  | take (index count : Nat)
  | travel (path : String)
deriving DecidableEq, Repr

namespace Player

def shown (p : Player) : List String :=
  p.stage.screen.pending.map (· ++ "\n")

def counted (p : Player) : Player :=
  { p.printed with steps := p.steps + 1 }

def option? (count : Nat) (text : String) : Option Nat :=
  (Decimal.index? (Text.trim text.toList)).bind fun n =>
    if 1 ≤ n ∧ n ≤ count then some (n - 1) else none

def rebuffs (count : Nat) (refused : List String) : List String :=
  refused.flatMap fun _ => ["无效的选择\n", prompt count]

def pleas (p : Player) (refused : List String) : List String :=
  match p.phase with
  | .awaitingChoice count => prompt count :: rebuffs count refused
  | _ => []

def Refuses (p : Player) (text : String) : Prop :=
  ∃ count, p.phase = .awaitingChoice count ∧ option? count text = none

/-- The player on its way to the script that a scene change asks for. -/
def leaving (p : Player) : Player :=
  { p with stage := p.stage.takeChange.2 }

def destination (p : Player) (change : SceneChange) : String :=
  p.config.scriptPath (change.script.getD change.scene)

def picked (p : Player) : Player :=
  { p with picks := p.picks.tail }

/-- One turn of a player: what it does with the reader's lines, what it prints, what comes of it and
which lines are left. -/
inductive Acts (d : Disk) (p : Player) (input : List InputLine) :
    Move → List String → Outcome → List InputLine → Prop
  | halt (hs : p.options.maxSteps ≤ p.steps) : Acts d p input .halt [] (.over p.summary) input
  | conclude (hs : p.steps < p.options.maxSteps) (hp : p.phase = .finished)
      (hc : p.stage.change = none) :
      Acts d p input .conclude ["（完）\n"] (.over p.counted.summary) input
  | travel {change} (hs : p.steps < p.options.maxSteps) (hp : p.phase = .finished)
      (hc : p.stage.change = some change) :
      Acts d p input (.travel (p.destination change)) []
        (p.counted.leaving.load (p.destination change) (d.read (p.destination change))) input
  | proceed {revealing} (hs : p.steps < p.options.maxSteps)
      (hp : p.phase = .awaitingAdvance revealing) (ha : p.options.auto = true) :
      Acts d p input .proceed [] p.counted.click input
  | enter {revealing text rest} (hs : p.steps < p.options.maxSteps)
      (hp : p.phase = .awaitingAdvance revealing) (ha : p.options.auto = false)
      (hi : input = some text :: rest) : Acts d p input .proceed [] p.counted.click rest
  | pick {count} (hs : p.steps < p.options.maxSteps) (hp : p.phase = .awaitingChoice count)
      (ha : p.options.auto = true) :
      Acts d p input (.take (p.picks.headD 0) count) (p.counted.picked.choose (p.picks.headD 0)).1
        (p.counted.picked.choose (p.picks.headD 0)).2 input
  | name {count refused text index rest} (hs : p.steps < p.options.maxSteps)
      (hp : p.phase = .awaitingChoice count) (ha : p.options.auto = false)
      (hi : input = refused.map some ++ some text :: rest) (hr : ∀ t ∈ refused, p.Refuses t)
      (hn : option? count text = some index) :
      Acts d p input (.take index count) (p.pleas refused ++ (p.counted.choose index).1)
        (p.counted.choose index).2 rest
  | quit {refused} (hs : p.steps < p.options.maxSteps) (hw : p.phase.isWaiting = true)
      (ha : p.options.auto = false) (hi : input = refused.map some)
      (hr : ∀ t ∈ refused, p.Refuses t) :
      Acts d p input .quit (p.pleas refused) (.over p.counted.summary) []
  | stumble {refused rest} (hs : p.steps < p.options.maxSteps) (hw : p.phase.isWaiting = true)
      (ha : p.options.auto = false) (hi : input = refused.map some ++ none :: rest)
      (hr : ∀ t ∈ refused, p.Refuses t) :
      Acts d p input .stumble (p.pleas refused) (.failed .unreadableInput) rest

variable {p q : Player} {d : Disk} {input : List InputLine} {count index : Nat}

/-- A player is at a stop of the script that it has loaded last. -/
structure Ready (p : Player) : Prop where
  stands : p.stage.Stands p.phase
  lists : ∀ count, p.phase = .awaitingChoice count → p.stage.screen.Lists
  script : p.scripts.getLast? = some p.stage.narrator.cursor.program.id

/-- A player goes on to a stop, with the same options and in the same step. -/
structure Leads (q p : Player) : Prop where
  ready : p.Ready
  options : p.options = q.options
  steps : p.steps = q.steps
  picks : p.picks = q.picks

end Player

inductive Outcome.Follows (q : Player) : Outcome → Prop
  | goesOn {p} (h : q.Leads p) : Follows q (.goesOn p)
  | failed {fault} (h : fault.isRefusal = false) : Follows q (.failed (.narration fault))

namespace Player

variable {p q : Player} {d : Disk} {input : List InputLine} {count index : Nat}

theorem Ready.phase_cases (h : p.Ready) : p.phase = .awaitingAdvance true ∨
    (∃ count, p.phase = .awaitingChoice count) ∨ p.phase = .finished := by
  have hc := h.stands.coherent
  rw [Narrator.Coherent, h.stands.narrator] at hc
  cases hp : p.phase with
  | idle => exact (h.stands.begun hp).elim
  | running =>
    rw [hp] at hc
    exact hc.elim
  | awaitingAdvance revealing =>
    cases revealing with
    | true => exact .inl rfl
    | false => exact (h.stands.revealing hp).elim
  | awaitingChoice count => exact .inr (.inl ⟨count, rfl⟩)
  | finished => exact .inr (.inr rfl)

theorem Ready.completed (h : p.Ready) : p.summary.completed = true ↔ p.phase = .finished := by
  rw [summary, Narrator.isFinished, h.stands.narrator, Phase.isFinished_iff]

theorem leads_of_arrives {program : Program} {s : Stage Console} {phase : Phase}
    (h : s.Arrives program phase) (hq : q.scripts.getLast? = some program.id) :
    q.Leads { q with stage := s, phase := phase } :=
  ⟨⟨h.stands, h.lists, by rw [h.program]; exact hq⟩, rfl, rfl, rfl⟩

theorem follows_resume {program : Program} {r : Stage Console × Except Fault Phase}
    (h : Stage.Lands program r) (hq : q.scripts.getLast? = some program.id) :
    (q.resume r).Follows q := by
  cases h with
  | stop ha => exact .goesOn (leads_of_arrives ha hq)
  | fault hf => exact .failed hf

theorem follows_click {revealing : Bool} (hs : q.stage.Stands q.phase)
    (hq : q.scripts.getLast? = some q.stage.narrator.cursor.program.id)
    (hp : q.phase = .awaitingAdvance revealing) : q.click.Follows q := by
  rw [click_eq (AtStop.narrator_phase ⟨hs.narrator, hs.revealing⟩ hp)]
  exact follows_resume (Stage.lands_playOn _ _) hq

/-- What comes of an index where there are so many choices. -/
inductive Chooses (q : Player) (index count : Nat) : List String × Outcome → Prop
  | refused (hi : count ≤ index) :
      Chooses q index count ([], .failed (.choice index (.invalidChoice index count)))
  | astray {fault} (hi : index < count) (hf : fault.isRefusal = false) :
      Chooses q index count ([], .failed (.choice index fault))
  | taken {text p} (hi : index < count) (ht : q.stage.screen.choices[index]? = some text)
      (h : q.Leads p) : Chooses q index count (["> " ++ text ++ "\n"], .goesOn p)

theorem chooses (hs : q.stage.Stands (.awaitingChoice count))
    (hq : q.scripts.getLast? = some q.stage.narrator.cursor.program.id) (index : Nat) :
    Chooses q index count (q.choose index) := by
  rw [choose]
  rcases Nat.lt_or_ge index count with hi | hi
  · have hl := hs.lands_choose hi
    generalize q.stage.choose index = r at hl
    cases hl with
    | fault hf => exact .astray hi hf
    | stop ha =>
      have hlen : index < q.stage.screen.choices.length := by rwa [hs.shown count rfl]
      rw [List.getElem?_eq_getElem hlen]
      exact .taken hi (List.getElem?_eq_getElem hlen) (leads_of_arrives ha hq)
  · rw [hs.choose_refused hi]
    exact .refused hi

theorem option?_lt {text : String} (h : option? count text = some index) : index < count := by
  obtain ⟨n, _, hn⟩ := Option.bind_eq_some_iff.mp h
  split at hn
  · cases hn
    omega
  · cases hn

theorem answer_of_text {revealing : Bool} (hp : p.phase = .awaitingAdvance revealing)
    (text : String) : p.answer (some text) = ([], some p.click) := by
  simp only [answer, hp]

theorem answer_of_choice (hp : p.phase = .awaitingChoice count) (text : String) :
    p.answer (some text) =
      match option? count text with
      | some index => ((p.choose index).1, some (p.choose index).2)
      | none => (["无效的选择\n", prompt count], none) := by
  simp only [answer, hp, option?]
  cases Decimal.index? (Text.trim text.toList) with
  | none => rfl
  | some n =>
    simp only [Option.bind_some]
    split <;> rfl

theorem ask_cons (p : Player) (line : InputLine) (rest : List InputLine) :
    p.ask (line :: rest) =
      match p.answer line with
      | (said, some outcome) => (said, outcome, rest)
      | (said, none) => (said ++ (p.ask rest).1, (p.ask rest).2) := by
  rcases h : p.answer line with ⟨said, _ | outcome⟩ <;> simp only [ask, h]

theorem counted_pick (p : Player) :
    p.counted.pick = p.counted.picked.choose (p.picks.headD 0) := by
  obtain ⟨config, options, stage, phase, steps, picks, scripts⟩ := p
  cases picks <;> rfl

theorem step_of_halt (hs : p.options.maxSteps ≤ p.steps) :
    p.step d input = (p.shown, .over p.summary, input) := by
  rw [step, next_eq, if_pos hs]
  rfl

theorem step_of_turn (hs : p.steps < p.options.maxSteps) :
    p.step d input =
      match p.counted.turn with
      | (said, .nothing outcome) => (p.shown ++ said, outcome, input)
      | (said, .line q) => (p.shown ++ said ++ (q.ask input).1, (q.ask input).2)
      | (said, .script q path) => (p.shown ++ said, q.load path (d.read path), input) := by
  have hn : p.next = p.counted.turn.map (p.shown ++ ·) id := by
    rw [next_eq, if_neg (Nat.not_le_of_lt hs)]
    rfl
  rw [step, hn]
  rcases p.counted.turn with ⟨said, outcome | q | ⟨q, path⟩⟩ <;> rfl

/-- What becomes of the question which choice to take, when some lines have been refused. -/
inductive Replies (q : Player) (count : Nat) (refused : List String) :
    List InputLine → List String × Outcome × List InputLine → Prop
  | gone : Replies q count refused (refused.map some)
      (rebuffs count refused, .over q.summary, [])
  | garbled {rest} : Replies q count refused (refused.map some ++ none :: rest)
      (rebuffs count refused, .failed .unreadableInput, rest)
  | named {text index rest} (hn : option? count text = some index) :
      Replies q count refused (refused.map some ++ some text :: rest)
        (rebuffs count refused ++ (q.choose index).1, (q.choose index).2, rest)

theorem Replies.cons {refused : List String} {r : List String × Outcome × List InputLine}
    (h : Replies q count refused input r) (text : String) :
    Replies q count (text :: refused) (some text :: input)
      (["无效的选择\n", prompt count] ++ r.1, r.2) := by
  cases h with
  | gone => exact .gone
  | garbled => exact .garbled
  | named hn => exact .named hn

theorem exists_replies (hp : q.phase = .awaitingChoice count) (input : List InputLine) :
    ∃ refused, (∀ t ∈ refused, option? count t = none) ∧
      Replies q count refused input (q.ask input) := by
  induction input with
  | nil => exact ⟨[], List.forall_mem_nil _, .gone⟩
  | cons line rest ih =>
    cases line with
    | none => exact ⟨[], List.forall_mem_nil _, .garbled⟩
    | some text =>
      rw [ask_cons, answer_of_choice hp]
      cases hn : option? count text with
      | some index => exact ⟨[], List.forall_mem_nil _, .named hn⟩
      | none =>
        obtain ⟨refused, hr, h⟩ := ih
        exact ⟨text :: refused, List.forall_mem_cons.mpr ⟨hn, hr⟩, h.cons text⟩

theorem acts_text {revealing : Bool} (hs : p.steps < p.options.maxSteps)
    (hp : p.phase = .awaitingAdvance revealing) (ha : p.options.auto = false)
    (input : List InputLine) :
    ∃ move, p.Acts d input move (p.counted.ask input).1 (p.counted.ask input).2.1
      (p.counted.ask input).2.2 := by
  have hq : p.counted.phase = .awaitingAdvance revealing := hp
  have hw : p.phase.isWaiting = true := by rw [hp]; rfl
  have hpleas : p.pleas [] = [] := by rw [pleas, hp]
  rcases input with _ | ⟨_ | text, rest⟩
  · have hm : p.Acts d [] .quit (p.pleas []) (.over p.counted.summary) [] :=
      .quit hs hw ha rfl (List.forall_mem_nil _)
    rw [hpleas] at hm
    exact ⟨_, hm⟩
  · have hm : p.Acts d (none :: rest) .stumble (p.pleas []) (.failed .unreadableInput) rest :=
      .stumble hs hw ha rfl (List.forall_mem_nil _)
    rw [hpleas] at hm
    exact ⟨_, hm⟩
  · rw [ask_cons, answer_of_text hq]
    exact ⟨_, .enter hs hp ha rfl⟩

theorem acts_choice (hs : p.steps < p.options.maxSteps) (hp : p.phase = .awaitingChoice count)
    (ha : p.options.auto = false) (input : List InputLine) :
    ∃ move, p.Acts d input move (prompt count :: (p.counted.ask input).1)
      (p.counted.ask input).2.1 (p.counted.ask input).2.2 := by
  have hw : p.phase.isWaiting = true := by rw [hp]; rfl
  have hq : p.counted.phase = .awaitingChoice count := hp
  obtain ⟨refused, hr, h⟩ := exists_replies hq input
  have hrefuses : ∀ t ∈ refused, p.Refuses t := fun t ht => ⟨count, hp, hr t ht⟩
  have hpleas : p.pleas refused = prompt count :: rebuffs count refused := by rw [pleas, hp]
  generalize p.counted.ask input = r at h
  cases h with
  | gone =>
    rw [← hpleas]
    exact ⟨_, .quit hs hw ha rfl hrefuses⟩
  | garbled =>
    rw [← hpleas]
    exact ⟨_, .stumble hs hw ha rfl hrefuses⟩
  | named hn =>
    rw [← List.cons_append, ← hpleas]
    exact ⟨_, .name hs hp ha rfl hrefuses hn⟩

theorem turn_of_change {change : SceneChange} (hp : p.phase = .finished)
    (hc : p.stage.change = some change) :
    p.turn = ([], .script p.leaving (p.destination change)) := by
  obtain ⟨config, options, ⟨narrator, director, screen, _⟩, phase, steps, picks, scripts⟩ := p
  cases hp
  cases hc
  rfl

theorem turn_of_end (hp : p.phase = .finished) (hc : p.stage.change = none) :
    p.turn = (["（完）\n"], .nothing (.over p.summary)) := by
  obtain ⟨config, options, ⟨narrator, director, screen, _⟩, phase, steps, picks, scripts⟩ := p
  cases hp
  cases hc
  rfl

theorem Ready.acts (h : p.Ready) (d : Disk) (input : List InputLine) :
    ∃ move said, p.Acts d input move said (p.step d input).2.1 (p.step d input).2.2 ∧
      (p.step d input).1 = p.shown ++ said := by
  rcases Nat.lt_or_ge p.steps p.options.maxSteps with hs | hs
  · rw [step_of_turn hs]
    rcases h.phase_cases with hp | ⟨count, hp⟩ | hp
    · have hq : p.counted.phase = .awaitingAdvance true := hp
      rw [turn, hq]
      cases ha : p.counted.options.auto with
      | true => exact ⟨_, _, .proceed hs hp ha, rfl⟩
      | false =>
        obtain ⟨move, hm⟩ := acts_text hs hp ha input
        exact ⟨move, _, hm, by simp⟩
    · have hq : p.counted.phase = .awaitingChoice count := hp
      rw [turn, hq]
      cases ha : p.counted.options.auto with
      | true =>
        rw [counted_pick]
        exact ⟨_, _, .pick hs hp ha, rfl⟩
      | false =>
        obtain ⟨move, hm⟩ := acts_choice hs hp ha input
        exact ⟨move, _, hm, by simp⟩
    · have hq : p.counted.phase = .finished := hp
      cases hc : p.counted.stage.change with
      | none =>
        rw [turn_of_end hq hc]
        exact ⟨_, _, .conclude hs hp hc, rfl⟩
      | some change =>
        rw [turn_of_change hq hc]
        exact ⟨_, _, .travel hs hp hc, rfl⟩
  · rw [step_of_halt hs]
    exact ⟨_, _, .halt hs, (List.append_nil _).symm⟩

/-- The options of the list that are left behind a move without a reader. -/
def spare (p : Player) : Move → List Nat
  | .take .. => p.picks.tail
  | _ => p.picks

/-- What a move spends: a step, and an option of the list with each choice. -/
structure Spends (p : Player) (move : Move) (q : Player) : Prop where
  options : q.options = p.options
  steps : q.steps = p.steps + 1
  picks : p.options.auto = true → q.picks = p.spare move

inductive Yields (d : Disk) (p : Player) : Move → Outcome → Prop
  | halt (hs : p.options.maxSteps ≤ p.steps) : Yields d p .halt (.over p.summary)
  | conclude (hs : p.steps < p.options.maxSteps) (hp : p.phase = .finished)
      (hc : p.stage.change = none) : Yields d p .conclude (.over p.counted.summary)
  | quit (hs : p.steps < p.options.maxSteps) (hw : p.phase.isWaiting = true)
      (ha : p.options.auto = false) : Yields d p .quit (.over p.counted.summary)
  | stumble : Yields d p .stumble (.failed .unreadableInput)
  | unread {path e} (he : d.read path = .error e) :
      Yields d p (.travel path) (.failed (.unreadableScript path e))
  | refused {index count : Nat} (ha : p.options.auto = true) (hi : count ≤ index) :
      Yields d p (.take index count) (.failed (.choice index (.invalidChoice index count)))
  | astray {index count : Nat} {fault} (hi : index < count) (hf : fault.isRefusal = false) :
      Yields d p (.take index count) (.failed (.choice index fault))
  | lost {move fault} (hm : ∀ index count, move ≠ .take index count)
      (hf : fault.isRefusal = false) : Yields d p move (.failed (.narration fault))
  | goesOn {move q} (hs : p.steps < p.options.maxSteps) (hq : q.Ready) (h : p.Spends move q)
      (hm : ∀ index count, move = .take index count → index < count) :
      Yields d p move (.goesOn q)

section

variable {q' : Player} {move : Move} {said : List String} {o : Outcome} {rest : List InputLine}

theorem Leads.spends (h : q.Leads q') (hq : p.Spends move q) : p.Spends move q' where
  options := h.options.trans hq.options
  steps := h.steps.trans hq.steps
  picks ha := h.picks.trans (hq.picks ha)

theorem Yields.of_follows (hs : p.steps < p.options.maxSteps)
    (hm : ∀ index count, move ≠ .take index count) (hq : p.Spends move q)
    (h : o.Follows q) : Yields d p move o := by
  cases h with
  | goesOn hl =>
    apply Yields.goesOn hs hl.ready (hl.spends hq)
    intro index count he
    exact (hm index count he).elim
  | failed hf => exact .lost hm hf

theorem Ready.stands_counted (h : p.Ready) : p.counted.stage.Stands p.phase :=
  ⟨h.stands.narrator, h.stands.coherent, h.stands.begun, h.stands.revealing, h.stands.shown⟩

theorem Ready.yields_click (h : p.Ready) (hs : p.steps < p.options.maxSteps) {revealing : Bool}
    (hp : p.phase = .awaitingAdvance revealing) : Yields d p .proceed p.counted.click := by
  have hq : p.Spends .proceed p.counted := ⟨rfl, rfl, fun _ => rfl⟩
  exact .of_follows hs nofun hq (follows_click h.stands_counted h.script hp)

theorem yields_load (hs : p.steps < p.options.maxSteps) (path : String) :
    Yields d p (.travel path) (p.counted.leaving.load path (d.read path)) := by
  cases he : d.read path with
  | error e => exact .unread he
  | ok text =>
    have hq : p.Spends (.travel path) { p.counted.leaving with scripts := p.scripts ++ [path] } :=
      ⟨rfl, rfl, fun _ => rfl⟩
    exact .of_follows hs nofun hq (follows_resume (Stage.lands_reload _ _) List.getLast?_concat)

theorem Ready.yields_choose (h : p.Ready) (hs : p.steps < p.options.maxSteps)
    (hp : p.phase = .awaitingChoice count) (hq : p.Spends (.take index count) q)
    (he : q.stage = p.counted.stage) (hsc : q.scripts = p.scripts)
    (hi : p.options.auto = true ∨ index < count) :
    Yields d p (.take index count) (q.choose index).2 := by
  have hst : q.stage.Stands (.awaitingChoice count) := by
    rw [he, ← hp]
    exact h.stands_counted
  have hscript : q.scripts.getLast? = some q.stage.narrator.cursor.program.id := by
    rw [he, hsc]
    exact h.script
  have hc := chooses hst hscript index
  generalize q.choose index = r at hc
  cases hc with
  | refused hle =>
    rcases hi with ha | hlt
    · exact .refused ha hle
    · omega
  | astray hlt hf => exact .astray hlt hf
  | taken hlt _ hl =>
    apply Yields.goesOn hs hl.ready (hl.spends hq)
    intro i n he
    cases he
    exact hlt

theorem Acts.yields (h : p.Acts d input move said o rest) (hr : p.Ready) : Yields d p move o := by
  cases h with
  | halt hs => exact .halt hs
  | conclude hs hp hc => exact .conclude hs hp hc
  | travel hs => exact yields_load hs _
  | proceed hs hp => exact hr.yields_click hs hp
  | enter hs hp => exact hr.yields_click hs hp
  | pick hs hp ha => exact hr.yields_choose hs hp ⟨rfl, rfl, fun _ => rfl⟩ rfl rfl (.inl ha)
  | name hs hp ha _ _ hn =>
    refine hr.yields_choose hs hp ⟨rfl, rfl, ?_⟩ rfl rfl (.inr (option?_lt hn))
    intro ht
    cases ha.symm.trans ht
  | quit hs hw ha => exact .quit hs hw ha
  | stumble => exact .stumble

theorem Acts.suffix (h : p.Acts d input move said o rest) : rest <:+ input := by
  cases h with
  | halt | conclude | travel | proceed | pick => exact List.suffix_rfl
  | enter _ _ _ hi =>
    rw [hi]
    exact List.suffix_cons _ _
  | name _ _ _ hi | stumble _ _ _ hi =>
    rw [hi]
    exact (List.suffix_cons _ _).trans (List.suffix_append _ _)
  | quit => exact List.nil_suffix

end

end Player

end Dialogue
