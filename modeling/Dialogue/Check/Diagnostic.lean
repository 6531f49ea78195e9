namespace Dialogue

inductive Level where
  | warn
  | error
deriving DecidableEq, Repr

def Level.name : Level → String
  | .warn => "WARN"
  | .error => "ERROR"

structure Diagnostic where
  level : Level
  script : String
  line : Option Nat
  message : String
  detail : Option String
deriving DecidableEq, Repr

def Diagnostic.text (d : Diagnostic) : String :=
  "[" ++ d.level.name ++ "] " ++ d.script ++
    (match d.line with
      | some line => ":" ++ toString line
      | none => "") ++
    ": " ++ d.message ++
    match d.detail with
    | some detail => "\n  | " ++ detail
    | none => ""

structure Report where
  scripts : Nat
  diagnostics : List Diagnostic
deriving DecidableEq, Repr

namespace Report

def count (r : Report) (level : Level) : Nat :=
  r.diagnostics.countP (·.level = level)

def errors (r : Report) : Nat :=
  r.count .error

def warnings (r : Report) : Nat :=
  r.count .warn

def hasErrors (r : Report) : Bool :=
  0 < r.errors

def verdict (r : Report) : String :=
  if r.hasErrors then
    "❌ " ++ toString r.errors ++ " 个错误, " ++ toString r.warnings ++ " 个警告"
  else if 0 < r.warnings then "⚠️  0 个错误, " ++ toString r.warnings ++ " 个警告"
  else "✅ 检查通过，无错误"

def text (r : Report) : String :=
  let title := "检查完成: " ++ toString r.scripts ++ " 个脚本"
  String.join ((title :: r.diagnostics.map Diagnostic.text ++ [r.verdict]).map (· ++ "\n"))

end Report

end Dialogue
