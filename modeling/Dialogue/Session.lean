import Dialogue.Check.Files
import Dialogue.CommandLine
import Dialogue.Player
namespace Dialogue

structure Ending where
  out : List String := []
  complaint : Option String := none
  code : Nat

inductive Session where
  | over (ending : Ending)
  | play (config : Config) (options : PlayOptions) (script : String)

def helpText : String := "分支对话脚本播放器

Usage: novel [OPTIONS] <COMMAND>

Commands:
  run    播放脚本
  check  检查脚本（默认：scripts_root 下所有脚本）
  help   Print this message or the help of the given subcommand(s)

Options:
  -c, --config <CONFIG>  配置文件（默认：config.json） [default: config.json]
  -v, --verbose          输出调试日志
  -h, --help             Print help
  -V, --version          Print version
"

def versionText : String := "novel 0.1.0\n"

namespace Ending

def failure (complaint : String) : Ending :=
  { complaint := some complaint, code := 1 }

def ofUsage : Usage → Ending
  | .help => { out := [helpText], code := 0 }
  | .version => { out := [versionText], code := 0 }
  | .error => { complaint := some helpText, code := 2 }

def ofReport (r : Report) : Ending :=
  { out := [r.text], code := if r.hasErrors then 1 else 0 }

def ofPlay : List String × Except PlayFault Summary → Ending
  | (out, .ok _) => { out := out, code := 0 }
  | (out, .error fault) => { failure (": ".intercalate fault.messages) with out := out }

end Ending

/-- The pictures that a check looks for; without a directory it looks for none. -/
def Config.checkedCatalog (c : Config) (d : Disk) : Except PlayFault (Option Catalog) :=
  match c.charactersDir with
  | none => .ok none
  | some _ => (c.catalog d).map some

namespace Session

def check (config : Config) (d : Disk) (path : String) : Ending :=
  match d.scripts path with
  | .error e => .failure e.message
  | .ok [] => { complaint := some "未找到脚本文件（.txt）", code := 0 }
  | .ok paths =>
    match config.checkedCatalog d with
    | .error fault => .failure (": ".intercalate fault.messages)
    | .ok catalog => .ofReport (d.check catalog paths)

/-- What is to be done with the settings; nothing is done if they make no sense. -/
def ofCommand (config : Config) (d : Disk) (command : Command) : Session :=
  match config.fault? d, command with
  | some fault, _ => .over (.failure ("配置无效: " ++ fault.message))
  | none, .check path => .over (check config d (path.getD config.scriptsRoot))
  | none, .play script options =>
    match script.or config.startPath? with
    | some path => .play config options path
    | none => .over (.failure
        "没有指定脚本：请在命令行传入脚本路径，或在 config.json 中配置 start_script")

def ofArguments (d : Disk) (args : List String) : Session :=
  match CommandLine.parse args with
  | .error usage => .over (.ofUsage usage)
  | .ok line => ofCommand (.loadOrDefault d line.config) d line.command

def finish (s : Session) (d : Disk) (input : List InputLine) : Ending :=
  match s with
  | .over ending => ending
  | .play config options path => .ofPlay (Player.run config options d path input)

/-- A play ends well just when no fault broke it off. -/
theorem code_finish_play (config : Config) (options : PlayOptions) (path : String) (d : Disk)
    (input : List InputLine) :
    (finish (.play config options path) d input).code = 0 ↔
      (Player.run config options d path input).2.isOk = true := by
  rw [finish]
  rcases Player.run config options d path input with ⟨out, fault | summary⟩
  · simp [Ending.ofPlay, Ending.failure, Except.isOk, Except.toBool]
  · simp [Ending.ofPlay, Except.isOk, Except.toBool]

end Session

end Dialogue
