namespace Dialogue

/-- What the text box, the name plate, the list of answers and the backdrop are told. -/
inductive ScreenCue where
  | revealText (content : String)
  | completeReveal
  | showSpeaker (name : Option String)
  | presentChoices (texts : List String)
  | clearChoices
  | showBackground (file : String)
deriving DecidableEq, Repr

class Screen (σ : Type) where
  perform : σ → ScreenCue → σ
  isRevealed : σ → Bool
  update : σ → Float32 → σ

/-- A screen that keeps what it was told. -/
structure Recorded (σ : Type) where
  screen : σ
  cues : List ScreenCue

instance {σ : Type} [Screen σ] : Screen (Recorded σ) where
  perform s c := ⟨Screen.perform s.screen c, s.cues ++ [c]⟩
  isRevealed s := Screen.isRevealed s.screen
  update s dt := { s with screen := Screen.update s.screen dt }

end Dialogue
