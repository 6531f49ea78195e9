import Dialogue.Text.Replace
namespace Dialogue.Script

/-- Turns every kind of line break into a line feed. -/
def unifyBreaks : List Char → List Char
  | [] => []
  | '\r' :: '\n' :: r => '\n' :: unifyBreaks r
  | c :: r => (if c = '\r' then '\n' else c) :: unifyBreaks r

theorem unifyBreaks_eq_self {s : List Char} (h : '\r' ∉ s) : unifyBreaks s = s := by
  induction s with
  | nil => rfl
  | cons c r ih =>
    rw [List.mem_cons, not_or] at h
    have hc : c ≠ '\r' := Ne.symm h.1
    rw [unifyBreaks, ih h.2, if_neg hc]
    intro _ hcr
    exact absurd hcr hc

/-- Shaken text is written as a link in dialogues. -/
def linkShaken (s : List Char) : List Char :=
  Text.replace "</shake>".toList "</link>".toList
    (Text.replace "<shake>".toList "<link=shake>".toList s)

def normalize (text : String) : String :=
  String.ofList (linkShaken (unifyBreaks text.toList))

end Dialogue.Script
