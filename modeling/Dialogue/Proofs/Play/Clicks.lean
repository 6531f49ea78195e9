import Dialogue.Proofs.Play.Calls
import Dialogue.Proofs.Play.Reading
import Dialogue.Proofs.Play.Variation
namespace Dialogue

namespace Narrator

/-- The inputs that come to the same as one input if the script does not go on by itself behind a
text. -/
def clicked (n : Narrator) (input : Option Input) : List (Option Input) :=
  if n.endsReveal input then [input, some .advance] else [input]

/-- The inputs that come to the same as all inputs of a run. -/
def clicks (n : Narrator) : List (Option Input) → List (Option Input)
  | [] => []
  | input :: inputs => n.clicked input ++ (n.tick input).1.clicks inputs

theorem follow_ticks (n : Narrator) (inputs : List (Option Input)) :
    n.follow (inputs.map .tick) = n.after inputs :=
  List.foldl_map

theorem autoAdvance_after (n : Narrator) (inputs : List (Option Input)) :
    (n.after inputs).autoAdvance = n.autoAdvance := by
  rw [← follow_ticks, autoAdvance_follow]

theorem after_append (n : Narrator) (inputs later : List (Option Input)) :
    n.after (inputs ++ later) = (n.after inputs).after later :=
  List.foldl_append

/-- The results of some ticks come to one result: their cues stand one after the other, and for the
rest the last one counts. -/
def Together (results : List (Except Fault Tick)) (result : Except Fault Tick) : Prop :=
  ∃ (earlier : List Tick) (last : Except Fault Tick), results = earlier.map .ok ++ [last] ∧
    (∀ t ∈ earlier, t.change = none) ∧
    result = last.map (Tick.after (earlier.flatMap Tick.cues))

theorem together_single (result : Except Fault Tick) : Together [result] result := by
  refine ⟨[], result, rfl, by simp, ?_⟩
  cases result <;> rfl

variable {n : Narrator}

theorem clicked_step (ha : n.autoAdvance = true) (input : Option Input) :
    (n.withAuto false).after (n.clicked input) = (n.tick input).1.withAuto false ∧
      Together (((n.withAuto false).transcript (n.clicked input)).map Prod.snd)
        (n.tick input).2 := by
  rw [clicked]
  cases h : n.endsReveal input with
  | false =>
    have ht := tick_withAuto h false
    simp only [after, transcript, ht, Bool.false_eq_true, if_false, List.foldl_cons,
      List.foldl_nil, List.map_cons, List.map_nil]
    exact ⟨rfl, together_single _⟩
  | true =>
    -- The first tick only shows the text in full, and the second one plays on.
    have ht : (n.withAuto false).tick input =
        ({ n.withAuto false with phase := .awaitingAdvance false },
          .ok ⟨revealCues input, .awaitingAdvance false, none⟩) := tick_of_endsReveal h
    have hn : ({ n.withAuto false with phase := .awaitingAdvance false } : Narrator).tick
        (some .advance) = (n.playOn []).map (withAuto false) id :=
      (tick_of_revealed rfl).trans (n.playOn_withAuto false [])
    rw [tick_of_endsReveal h, if_pos ha, n.playOn_due (revealCues input)]
    simp only [after, transcript, ht, hn, if_true, List.foldl_cons, List.foldl_nil, List.map_cons,
      List.map_nil]
    refine ⟨rfl, [⟨revealCues input, .awaitingAdvance false, none⟩], (n.playOn []).2, rfl, ?_, ?_⟩
    · simp
    · simp [Prod.map]

theorem after_clicks (ha : n.autoAdvance = true) (inputs : List (Option Input)) :
    (n.withAuto false).after (n.clicks inputs) = (n.after inputs).withAuto false := by
  induction inputs generalizing n with
  | nil => rfl
  | cons input inputs ih =>
    have hn : (n.tick input).1.autoAdvance = true :=
      (n.autoAdvance_obey (.tick input)).trans ha
    rw [clicks, after_append, (clicked_step ha input).1, ih hn]
    rfl

/-- Going on by hand comes to the same as going on by itself, with one more click behind each text.
-/
theorem clicks_together (p : Program) (s : Store) (inputs : List (Option Input)) :
    let auto := (start p s true).after inputs
    let byHand := (start p s false).after ((start p s true).clicks inputs)
    (byHand.phase = auto.phase ∧ byHand.cursor = auto.cursor ∧ byHand.store = auto.store) ∧
      ∀ input, Together ((byHand.transcript (auto.clicked input)).map Prod.snd)
        (auto.tick input).2 := by
  intro auto byHand
  have ha : auto.autoAdvance = true := autoAdvance_after (start p s true) inputs
  have hb : byHand = auto.withAuto false := after_clicks (n := start p s true) rfl inputs
  rw [hb]
  refine ⟨⟨rfl, rfl, rfl⟩, ?_⟩
  intro input
  exact (clicked_step ha input).2

end Narrator

end Dialogue
