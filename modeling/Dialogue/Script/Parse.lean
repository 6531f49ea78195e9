import Dialogue.Script.Line
import Dialogue.Script.Program
import Dialogue.Script.Source
import Dialogue.Script.Tag
namespace Dialogue

namespace Script

inductive Warning where
  | strayOption (line : Nat) (text target : String)
  | repeatedLabel (line : Nat) (name : String)
  | tag (line : Nat) (name : String) (defect : Defect)
deriving DecidableEq, Repr

namespace Warning

def line : Warning → Nat
  | .strayOption line .. => line
  | .repeatedLabel line _ => line
  | .tag line .. => line

def detail : Warning → String
  | .strayOption _ text target => "选择项不在任何 [choices] 之后，已忽略: " ++ text ++ " > " ++ target
  | .repeatedLabel _ name => "标签 '" ++ name ++ "' 重复定义，以第一次定义为准"
  | .tag _ name .unknownTag => "未知标签 '" ++ name ++ "'，执行时将跳过"
  | .tag _ name (.missing parameter) =>
    "[" ++ name ++ "] 缺少属性 '" ++ parameter ++ "'，执行时将跳过"
  | .tag _ _ (.unknownDirection name) => "未知的方向 '" ++ name ++ "'，使用 center"
  | .tag _ _ (.unknownGesture name) => "未知的角色动作 '" ++ name ++ "'，执行时将跳过"

def message (w : Warning) : String :=
  "第 " ++ toString w.line ++ " 行：" ++ w.detail

end Warning

/-- The actions with their line numbers, and the options that no choice has taken yet: an option
belongs to the nearest choice above it. -/
def assemble : List (Nat × Line) → List (Nat × Action) × List ChoiceOption
  | [] => ([], [])
  | (n, .tag name body) :: r =>
    let (actions, options) := assemble r
    match (Tag.ofLine name body).action with
    | .choices _ => ((n, .choices options) :: actions, [])
    | a => ((n, a) :: actions, options)
  | (_, .option text target) :: r =>
    let (actions, options) := assemble r
    (actions, ⟨text, target⟩ :: options)
  | (n, .prose content) :: r =>
    let (actions, options) := assemble r
    ((n, .message content) :: actions, options)

/-- The warnings about a list of lines; `seen` holds the labels above it, and `inChoice` says
whether there is a choice above it. -/
def warningsFrom (seen : List String) (inChoice : Bool) : List (Nat × Line) → List Warning
  | [] => []
  | (n, .tag name body) :: r =>
    let tag := Tag.ofLine name body
    tag.defects.map (.tag n tag.name) ++
      match tag.action with
      | .label l =>
        (if l ∈ seen then [.repeatedLabel n l] else []) ++ warningsFrom (l :: seen) inChoice r
      | .choices _ => warningsFrom seen true r
      | _ => warningsFrom seen inChoice r
  | (n, .option text target) :: r =>
    (if inChoice then [] else [.strayOption n text target]) ++ warningsFrom seen inChoice r
  | (_, .prose _) :: r => warningsFrom seen inChoice r

def warnings (ls : List (Nat × Line)) : List Warning :=
  warningsFrom [] false ls

def linesOf (text : String) : List (Nat × Line) :=
  recognize (linkShaken (unifyBreaks text.toList))

end Script

def Program.parse (id text : String) : Program :=
  let actions := (Script.assemble (Script.linesOf text)).1
  .ofActions id (actions.map Prod.snd) (actions.map Prod.fst)

def Program.warnings (text : String) : List Script.Warning :=
  Script.warnings (Script.linesOf text)

theorem Program.indexed_parse (id text : String) : (Program.parse id text).Indexed := rfl

end Dialogue
