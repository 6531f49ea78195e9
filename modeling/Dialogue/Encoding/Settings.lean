import Dialogue.Json.Value
import Dialogue.Stage.Settings
namespace Dialogue

def StageSettings.decode? (j : Json) : Option StageSettings :=
  let fields := j.fields?
    ["chars_per_second", "actor_duration", "actor_width", "move_distance", "auto_advance"]
  match fields with
  | some [speed, duration, width, distance, auto] => do
    let usual : StageSettings := {}
    some {
      charsPerSecond := ← Json.withDefault Json.float32? usual.charsPerSecond speed
      actorDuration := ← Json.withDefault Json.float32? usual.actorDuration duration
      actorWidth := ← Json.withDefault Json.float32? usual.actorWidth width
      moveDistance := ← Json.withDefault Json.float32? usual.moveDistance distance
      autoAdvance := ← Json.withDefault Json.bool? usual.autoAdvance auto }
  | _ => none

end Dialogue
