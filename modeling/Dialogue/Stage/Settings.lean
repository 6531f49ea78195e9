namespace Dialogue

structure StageSettings where
  /-- How many characters of a text appear in a second; none or less shows it at once. -/
  charsPerSecond : Float32 := 45
  /-- The seconds in which an actor comes or leaves. -/
  actorDuration : Float32 := 0.5
  actorWidth : Float32 := 350
  moveDistance : Float32 := 800
  /-- Whether the script goes on as soon as a text is shown in full. -/
  autoAdvance : Bool := true

def StageSettings.revealDuration (s : StageSettings) (chars : Nat) : Float32 :=
  if s.charsPerSecond ≤ 0 then 0 else Float32.ofNat chars / s.charsPerSecond

end Dialogue
