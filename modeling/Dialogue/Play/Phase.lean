namespace Dialogue

inductive Phase where
  | idle
  | running
  | awaitingAdvance (revealing : Bool)
  | awaitingChoice (count : Nat)
  | finished
deriving DecidableEq, Repr, Inhabited

namespace Phase

def name : Phase → String
  | .idle => "Idle"
  | .running => "Running"
  | .awaitingAdvance _ => "AwaitingAdvance"
  | .awaitingChoice _ => "AwaitingChoice"
  | .finished => "Finished"

def isWaiting : Phase → Bool
  | .awaitingAdvance _ => true
  | .awaitingChoice _ => true
  | _ => false

def isFinished : Phase → Bool
  | .finished => true
  | _ => false

@[simp] theorem isFinished_iff {p : Phase} : p.isFinished = true ↔ p = .finished := by
  cases p <;> simp [isFinished]

end Phase

inductive Input where
  | advance
  | revealFinished
  | choose (index : Nat)
deriving DecidableEq, Repr

/-- Why a narrator cannot do what is asked, or cannot go on. -/
inductive Fault where
  | labelNotFound (label : String)
  | noProgress (label : String)
  | invalidChoice (index count : Nat)
  | notChoosing (phase : Phase)
  | notAtChoice (kind : Option String)
  | scriptEnded
deriving DecidableEq, Repr

def Fault.message : Fault → String
  | .labelNotFound label => "标签 '" ++ label ++ "' 未找到"
  | .noProgress label => "跳转到标签 '" ++ label ++ "' 形成了没有对话或选择的循环"
  | .invalidChoice index count =>
    "无效的选择索引 " ++ toString index ++ "，有效范围是 0.." ++ toString count
  | .notChoosing phase => "当前状态不允许此操作：期望 AwaitingChoice，实际 " ++ phase.name
  | .notAtChoice kind =>
    "当前状态不允许此操作：期望 选择分支，实际 " ++
      match kind with
      | some kind => "Some(\"" ++ kind ++ "\")"
      | none => "None"
  | .scriptEnded => "脚本已执行完毕"

end Dialogue
