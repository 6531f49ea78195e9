import Dialogue.Check.Diagnostic
import Dialogue.Play.Effect
import Dialogue.Script.Parse
namespace Dialogue

abbrev Catalog := String → Bool

def Catalog.all : Catalog :=
  fun _ => true

def Catalog.ofNames (names : List String) : Catalog :=
  fun image => image ∈ names

/-- What can be said of a script without playing it. -/
inductive Finding where
  | oddity (warning : Script.Warning)
  | repeatedLabel (name : String) (firstLine : Option Nat)
  | emptyChoice
  | undefinedTarget (label : String)
  | silentLoop (label : String)
  | missingImage (kind image : String)
  | unreadable (reason : String)
deriving DecidableEq, Repr

namespace Finding

def level : Finding → Level
  | .oddity _ => .warn
  | .repeatedLabel .. => .warn
  | .emptyChoice => .warn
  | .undefinedTarget _ => .error
  | .silentLoop _ => .error
  | .missingImage .. => .error
  | .unreadable _ => .error

def message : Finding → String
  | .oddity warning => warning.message
  | .repeatedLabel name _ => "标签 '" ++ name ++ "' 重复定义，此处定义被忽略"
  | .emptyChoice => "选择分支没有任何选项"
  | .undefinedTarget label => "未定义的跳转目标: " ++ label
  | .silentLoop label => "跳转到 '" ++ label ++ "' 形成了死循环"
  | .missingImage _ image => "立绘不存在: " ++ image
  | .unreadable _ => "无法读取文件"

def detail : Finding → Option String
  | .oddity _ => none
  | .repeatedLabel _ firstLine =>
    firstLine.map fun line => "第一次定义在第 " ++ toString line ++ " 行"
  | .emptyChoice => none
  | .undefinedTarget label => some ("goto 或 choice 引用了不存在的 label '" ++ label ++ "'")
  | .silentLoop _ => some "循环中没有对话或选择，执行会在这里停止"
  | .missingImage kind _ => some ("[" ++ kind ++ "] 引用的立绘在立绘目录中找不到")
  | .unreadable reason => some reason

def diagnostic (script : String) (line : Option Nat) (f : Finding) : Diagnostic :=
  ⟨f.level, script, line, f.message, f.detail⟩

end Finding

namespace Program

def indexed (p : Program) : List (Action × Nat) :=
  p.actions.zipIdx

def definedLabels (p : Program) : List String :=
  p.actions.filterMap Action.label?

def targetsOf : Action → List String
  | .goto target => [target]
  | .choices options => options.map ChoiceOption.target
  | _ => []

def jumpTargets (p : Program) : List (Nat × String) :=
  p.indexed.flatMap fun (a, i) => (targetsOf a).map (i, ·)

def targetLabels (p : Program) : List String :=
  ((p.jumpTargets.map Prod.snd).mergeSort (· ≤ ·)).eraseDups

/-- Labels that are defined a second time and choices without options. -/
def slips (p : Program) : List (Nat × Finding) :=
  p.indexed.filterMap fun (a, i) =>
    match a with
    | .label name =>
      match p.actions.findIdx? (·.label? = some name) with
      | some first => if first < i then some (i, .repeatedLabel name (p.line? first)) else none
      | none => none
    | .choices [] => some (i, .emptyChoice)
    | _ => none

def undefinedTargets (p : Program) : List (Nat × Finding) :=
  p.jumpTargets.filterMap fun (i, label) =>
    match p.label? label with
    | some _ => none
    | none => some (i, .undefinedTarget label)

/-- The first jump in a list of actions that are played without a wait; `i` is the index of the
first action. -/
def jumpFrom? (i : Nat) : List Action → Option Nat
  | [] => none
  | a :: r =>
    match a.next with
    | .proceed => jumpFrom? (i + 1) r
    | .jump _ => some i
    | _ => none

/-- The jump that playing on from the jump at `i` comes to without a wait. -/
def nextJump? (p : Program) (i : Nat) : Option Nat :=
  match p.actions[i]? with
  | some (.goto target) => (p.label? target).bind fun k => jumpFrom? k (p.actions.drop k)
  | _ => none

def jumpTable (p : Program) : Array (Option Nat) :=
  (Array.range p.size).map p.nextJump?

theorem join_jumpTable (p : Program) (i : Nat) : p.jumpTable[i]?.join = p.nextJump? i := by
  by_cases h : i < p.size
  · simp [jumpTable, h]
  · rw [nextJump?, List.getElem?_eq_none (Nat.le_of_not_lt h)]
    simp [jumpTable, h]

/-- Whether at most so many steps lead from `i` to `goal`. -/
def arrives (step : Nat → Option Nat) (goal : Nat) : Nat → Nat → Bool
  | 0, _ => false
  | steps + 1, i =>
    match step i with
    | none => false
    | some j => j == goal || arrives step goal steps j

/-- The jumps that lead back to themselves without a wait, with their labels. -/
def silentLoops (p : Program) : List (Nat × String) :=
  let table := p.jumpTable
  p.indexed.filterMap fun (a, i) =>
    match a with
    | .goto target =>
      -- A way back without a repetition takes no more jumps than there are actions.
      if arrives (fun j => table[j]?.join) i p.size i then some (i, target) else none
    | _ => none

theorem silentLoops_eq (p : Program) :
    p.silentLoops = p.indexed.filterMap fun (a, i) =>
      match a with
      | .goto target => if arrives p.nextJump? i p.size i then some (i, target) else none
      | _ => none := by
  simp only [silentLoops, join_jumpTable]

def findings (p : Program) : List (Nat × Finding) :=
  p.slips ++ p.undefinedTargets ++ p.silentLoops.map fun (i, label) => (i, .silentLoop label)

def analyze (p : Program) : List Diagnostic :=
  p.findings.map fun (i, f) => f.diagnostic p.id (p.line? i)

def imageOf? : Action → Option (String × String)
  | .showCharacter image .. => some ("char", image)
  | .expression _ image => some ("expr", image)
  | _ => none

def images (p : Program) : List (Nat × String × String) :=
  p.indexed.filterMap fun (a, i) => (imageOf? a).map (i, ·)

def missingImages (p : Program) (catalog : Catalog) : List (Nat × Finding) :=
  p.images.filterMap fun (i, kind, image) =>
    if catalog image then none else some (i, .missingImage kind image)

end Program

/-- All remarks on the text of a script; pictures are looked up only if there is a catalog. -/
def checkText (catalog : Option Catalog) (id text : String) : List Diagnostic :=
  let p := Program.parse id text
  (Program.warnings text).map (fun w => (Finding.oddity w).diagnostic id none) ++
    p.analyze ++
    match catalog with
    | none => []
    | some catalog => (p.missingImages catalog).map fun (i, f) => f.diagnostic id (p.line? i)

end Dialogue
