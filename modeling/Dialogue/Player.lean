import Dialogue.Config
import Dialogue.Files.Pictures
import Dialogue.Stage.Console
import Dialogue.Stage.Stage
namespace Dialogue

structure PlayOptions where
  /-- Go on without waiting for the reader. -/
  auto : Bool := false
  /-- The options to take when going on without a reader; then always the first one. -/
  choices : List Nat := []
  /-- After how many stops to end. -/
  maxSteps : Nat := 10000
deriving DecidableEq, Repr

inductive PlayFault where
  | unreadableScript (path : String) (fault : ReadFault)
  | unreadablePictures (dir : String) (fault : ReadFault)
  | unreadableInput
  | narration (fault : Fault)
  | choice (index : Nat) (fault : Fault)
deriving DecidableEq, Repr

def PlayFault.messages : PlayFault → List String
  | .unreadableScript path fault => ["无法读取脚本: " ++ path, fault.message]
  | .unreadablePictures dir fault =>
    ["无法扫描立绘目录: " ++ dir, "IO error for operation on " ++ dir ++ ": " ++ fault.message,
      fault.message]
  | .unreadableInput => [ReadFault.invalidText.message]
  | .narration fault => [fault.message]
  | .choice index fault =>
    ["无法选择第 " ++ toString ((index + 1) % UInt64.size) ++ " 项", fault.message]

structure Summary where
  scripts : List String
  steps : Nat
  store : Store
  /-- Whether the narrator had come to an end. -/
  completed : Bool

/-- A play in progress, as it stands behind the last stop. -/
structure Player where
  config : Config
  options : PlayOptions
  stage : Stage Console
  phase : Phase
  steps : Nat
  picks : List Nat
  scripts : List String

/-- A line of the reader; without a text it is not valid. -/
abbrev InputLine := Option String

inductive Outcome where
  | over (summary : Summary)
  | failed (fault : PlayFault)
  | goesOn (p : Player)

inductive Need where
  | nothing (outcome : Outcome)
  | line (p : Player)
  | script (p : Player) (path : String)

def Config.catalog (c : Config) (d : Disk) : Except PlayFault Catalog :=
  match c.charactersDir with
  | none => .ok .all
  | some dir =>
    match d.pictures dir with
    | .ok names => .ok (.ofNames names)
    | .error e => .error (.unreadablePictures dir e)

namespace Player

def summary (p : Player) : Summary :=
  ⟨p.scripts, p.steps, p.stage.narrator.store, p.stage.narrator.isFinished⟩

def resume (p : Player) : Stage Console × Except Fault Phase → Outcome
  | (stage, .ok phase) => .goesOn { p with stage := stage, phase := phase }
  | (_, .error fault) => .failed (.narration fault)

def start (config : Config) (options : PlayOptions) (catalog : Catalog) (path text : String) :
    Outcome :=
  let program := Program.parse path text
  let console := Console.start config.stage.charsPerSecond
  let stage := Stage.build program .empty console catalog config.stage
  let p : Player := ⟨config, options, stage, .idle, 0, options.choices, [path]⟩
  p.resume stage.start

def click (p : Player) : Outcome :=
  match p.stage.skip with
  | (stage, .ok (.awaitingAdvance false)) => p.resume stage.advance
  | result => p.resume result

def choose (p : Player) (index : Nat) : List String × Outcome :=
  match p.stage.choose index with
  | (_, .error fault) => ([], .failed (.choice index fault))
  | (stage, .ok phase) =>
    let said := match p.stage.screen.choices[index]? with
      | some text => ["> " ++ text ++ "\n"]
      | none => []
    (said, .goesOn { p with stage := stage, phase := phase })

def prompt (count : Nat) : String :=
  "请选择 (1-" ++ toString count ++ "): "

/-- Takes the next option of the list, or the first option behind its end. -/
def pick (p : Player) : List String × Outcome :=
  match p.picks with
  | [] => p.choose 0
  | index :: picks => { p with picks := picks }.choose index

/-- Prints what the stage has shown, and finds out what is needed to go on. -/
def next (p : Player) : List String × Need :=
  let (lines, console) := p.stage.screen.drain
  let shown := lines.map (· ++ "\n")
  let p := { p with stage := { p.stage with screen := console } }
  if p.options.maxSteps ≤ p.steps then (shown, .nothing (.over p.summary))
  else
    let p := { p with steps := p.steps + 1 }
    match p.phase with
    | .awaitingAdvance _ =>
      (shown, if p.options.auto then .nothing p.click else .line p)
    | .awaitingChoice count =>
      if p.options.auto then
        let (said, outcome) := p.pick
        (shown ++ said, .nothing outcome)
      else (shown ++ [prompt count], .line p)
    | .finished =>
      match p.stage.takeChange with
      | (none, _) => (shown ++ ["（完）\n"], .nothing (.over p.summary))
      | (some change, stage) =>
        (shown, .script { p with stage := stage }
          (p.config.scriptPath (change.script.getD change.scene)))
    | _ => (shown, .nothing (.over p.summary))

/-- Goes on with a line of the reader; one that names no option is refused. -/
def answer (p : Player) (line : InputLine) : List String × Option Outcome :=
  match line, p.phase with
  | none, _ => ([], some (.failed .unreadableInput))
  | some text, .awaitingChoice count =>
    let refused := (["无效的选择\n", prompt count], none)
    match Decimal.index? (Text.trim text.toList) with
    | none => refused
    | some n =>
      if 1 ≤ n ∧ n ≤ count then
        let (said, outcome) := p.choose (n - 1)
        (said, some outcome)
      else refused
  | some _, _ => ([], some p.click)

def load (p : Player) (path : String) : Except ReadFault String → Outcome
  | .error e => .failed (.unreadableScript path e)
  | .ok text =>
    { p with scripts := p.scripts ++ [path] }.resume (p.stage.reload (.parse path text))

/-- Goes through the lines of a reader up to one that is taken; with the last line the play is
over. -/
def ask (p : Player) : List InputLine → List String × Outcome × List InputLine
  | [] => ([], .over p.summary, [])
  | line :: r =>
    match p.answer line with
    | (said, some outcome) => (said, outcome, r)
    | (said, none) =>
      let (more, outcome, r) := p.ask r
      (said ++ more, outcome, r)

@[simp] theorem ask_nil (p : Player) : p.ask [] = ([], .over p.summary, []) :=
  rfl

def step (p : Player) (d : Disk) (input : List InputLine) :
    List String × Outcome × List InputLine :=
  match p.next with
  | (shown, .nothing outcome) => (shown, outcome, input)
  | (shown, .line q) =>
    let (said, outcome, input) := q.ask input
    (shown ++ said, outcome, input)
  | (shown, .script q path) => (shown, q.load path (d.read path), input)

/-- Plays to the end; no play takes more steps than its options allow. -/
def play (d : Disk) : Nat → Outcome → List InputLine → List String × Except PlayFault Summary
  | _, .over summary, _ => ([], .ok summary)
  | _, .failed fault, _ => ([], .error fault)
  | 0, .goesOn p, _ => ([], .ok p.summary)
  | steps + 1, .goesOn p, input =>
    let (said, outcome, input) := p.step d input
    let (more, result) := play d steps outcome input
    (said ++ more, result)

@[simp] theorem play_over (d : Disk) (steps : Nat) (s : Summary) (input : List InputLine) :
    play d steps (.over s) input = ([], .ok s) := by
  cases steps <;> rfl

def begin (config : Config) (options : PlayOptions) (d : Disk) (path : String) : Outcome :=
  match d.read path with
  | .error e => .failed (.unreadableScript path e)
  | .ok text =>
    match config.catalog d with
    | .error e => .failed e
    | .ok catalog => start config options catalog path text

def run (config : Config) (options : PlayOptions) (d : Disk) (path : String)
    (input : List InputLine) : List String × Except PlayFault Summary :=
  play d (options.maxSteps + 1) (begin config options d path) input

end Player

/-- The lines of an input, each with its line break; what follows the last break is a line too. -/
def inputLines (bytes : ByteArray) : List InputLine :=
  let rec split (line : List UInt8) : List UInt8 → List (List UInt8)
    | [] => if line = [] then [] else [line.reverse]
    | b :: r => if b = 10 then (b :: line).reverse :: split [] r else split (b :: line) r
  (split [] bytes.toList).map fun line => String.fromUTF8? ⟨line.toArray⟩

end Dialogue
