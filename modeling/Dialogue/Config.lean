import Dialogue.Encoding.Settings
import Dialogue.Files.Disk
import Dialogue.Json.Reader
namespace Dialogue

structure Config where
  scriptsRoot : String := "scripts"
  /-- The script to begin with, below the root of the scripts; none if empty. -/
  startScript : String := ""
  /-- Where the pictures are; without it every picture exists. -/
  charactersDir : Option String := none
  logLevel : String := "info"
  stage : StageSettings := {}

inductive ConfigFault where
  | speed
  | duration
  | size
  | noDirectory (dir : String)
deriving DecidableEq, Repr

def ConfigFault.message : ConfigFault → String
  | .speed => "配置验证失败: 文字速度 chars_per_second 必须大于 0"
  | .duration => "配置验证失败: 角色动画时长 actor_duration 不能为负"
  | .size => "配置验证失败: actor_width 与 move_distance 不能为负"
  | .noDirectory dir => "配置验证失败: 立绘目录不存在: " ++ dir

inductive LoadFault where
  | unreadable (fault : ReadFault)
  | malformed
deriving DecidableEq, Repr

namespace Config

def decode? (j : Json) : Option Config :=
  let fields := j.fields?
    ["scripts_root", "start_script", "characters_dir", "log_level", "stage"]
  match fields with
  | some [root, start, characters, level, stage] => do
    let usual : Config := {}
    some {
      scriptsRoot := ← Json.withDefault Json.text? usual.scriptsRoot root
      startScript := ← Json.withDefault Json.text? usual.startScript start
      charactersDir := ← Json.optional Json.text? characters
      logLevel := ← Json.withDefault Json.text? usual.logLevel level
      stage := ← Json.withDefault StageSettings.decode? usual.stage stage }
  | _ => none

def load (d : Disk) (path : String) : Except LoadFault Config :=
  match d.read path with
  | .error e => .error (.unreadable e)
  | .ok text =>
    match (Json.read? text).bind decode? with
    | some config => .ok config
    | none => .error .malformed

def loadOrDefault (d : Disk) (path : String) : Config :=
  match load d path with
  | .ok config => config
  | .error _ => {}

def fault? (c : Config) (d : Disk) : Option ConfigFault :=
  if c.stage.charsPerSecond ≤ 0 then some .speed
  else if c.stage.actorDuration < 0 then some .duration
  else if c.stage.actorWidth < 0 ∨ c.stage.moveDistance < 0 then some .size
  else match c.charactersDir with
    | some dir => if d.isDir dir then none else some (.noDirectory dir)
    | none => none

/-- Where the script of a name is; a name without an extension gets the one of scripts. -/
def scriptPath (c : Config) (name : String) : String :=
  let path := Path.join c.scriptsRoot name
  if (Path.extension? path).isSome then path else Path.withExtension path "txt"

def startPath? (c : Config) : Option String :=
  if c.startScript = "" then none else some (c.scriptPath c.startScript)

end Config

end Dialogue
