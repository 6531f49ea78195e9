import Dialogue.Proofs.Check.SilentLoop
import Dialogue.Proofs.Play.Coherence
namespace Dialogue

namespace Program

/-- A program in which every jump has its label and no jump leads back to itself without a wait. -/
structure Clean (p : Program) : Prop where
  label_of_target : ∀ i a, p.action? i = some a → ∀ label ∈ targetsOf a,
    ∃ k, p.label? label = some k
  not_onLoop : ∀ i label, p.action? i = some (.goto label) → ¬p.OnLoop i

theorem level_of_clean {p : Program} (h : (Report.mk 1 p.analyze).hasErrors = false)
    {e : Nat × Finding} (he : e ∈ p.findings) : e.2.level ≠ .error := by
  rw [Report.hasErrors, decide_eq_false_iff_not, Nat.not_lt, Nat.le_zero, Report.errors,
    Report.count, List.countP_eq_zero] at h
  have hd := h (e.2.diagnostic p.id (p.line? e.1)) (List.mem_map.mpr ⟨e, he, rfl⟩)
  intro hl
  exact hd (decide_eq_true hl)

theorem clean_of_analyze {p : Program} (h : (Report.mk 1 p.analyze).hasErrors = false) :
    p.Clean := by
  constructor
  · intro i a ha label hl
    cases hk : p.label? label with
    | some k => exact ⟨k, rfl⟩
    | none =>
      have hm : (i, label) ∈ p.jumpTargets := by
        rw [jumpTargets, List.mem_flatMap]
        exact ⟨(a, i), List.mem_zipIdx_iff_getElem?.mpr ha, List.mem_map.mpr ⟨label, hl, rfl⟩⟩
      have hf : (i, Finding.undefinedTarget label) ∈ p.undefinedTargets := by
        rw [undefinedTargets, List.mem_filterMap]
        refine ⟨(i, label), hm, ?_⟩
        simp only [hk]
      refine (level_of_clean h (e := (i, .undefinedTarget label)) ?_ rfl).elim
      exact List.mem_append_left _ (List.mem_append_right _ hf)
  · intro i label ha hl
    have hm : (i, label) ∈ p.silentLoops := mem_silentLoops_iff.mpr ⟨ha, hl⟩
    refine level_of_clean h (e := (i, .silentLoop label)) ?_ rfl
    exact List.mem_append_right _ (List.mem_map.mpr ⟨(i, label), hm, rfl⟩)

end Program

namespace Cursor

theorem play_ne_fails {c : Cursor} (h : c.program.Clean) {s : Store} {r : Stretch}
    (hr : c.Plays (List.range c.program.size) s r) (fault : Fault) : r.stop ≠ .fails fault := by
  intro hs
  rcases hr.fault_cases hs with ⟨label, rfl⟩ | ⟨label, rfl⟩
  · obtain ⟨hc, hl⟩ := hr.current_of_labelNotFound hs
    obtain ⟨i, _, ha⟩ := Option.bind_eq_some_iff.mp hc
    rw [hr.program_eq] at ha hl
    obtain ⟨k, hk⟩ := h.label_of_target i _ ha label (List.mem_singleton.mpr rfl)
    cases hl.symm.trans hk
  · obtain ⟨i, _, ha, _, hl⟩ := hr.loop_of_noProgress (tracked_range c) hs
    exact h.not_onLoop i label ha hl

end Cursor

namespace Narrator

theorem refusal_of_answer {n : Narrator} {input : Option Input} {fault : Fault}
    (hp : n.cursor.program.Clean) (hn : n.Coherent) {answer : Narrator × Except Fault Tick}
    (h : Answers n input answer) (hf : answer.2 = .error fault) : Refusal n.phase input fault := by
  cases h with
  | ended h =>
    cases hf
    rw [h]
    exact .ended
  | badIndex h hi =>
    cases hf
    rw [h]
    exact .badIndex hi
  | notChoosing hc h =>
    cases hf
    exact .notChoosing hc h
  | astray h hi ht =>
    obtain ⟨_, o, _, _, ho⟩ := hn.target_eq h hi
    cases ht.symm.trans ho
  | lost h hi ht hj =>
    obtain ⟨options, o, hm, hc, ho⟩ := hn.target_eq h hi
    cases ht.symm.trans ho
    obtain ⟨i, _, ha⟩ := Option.bind_eq_some_iff.mp hc
    obtain ⟨k, hk⟩ := hp.label_of_target i _ ha o.target (List.mem_map.mpr ⟨o, hm, rfl⟩)
    cases (Option.map_eq_none_iff.mp hj).symm.trans hk
  | stopped | waits | repeated | ignored | clicked | shown => cases hf

theorem refusal_of_tick {n : Narrator} {input : Option Input} {fault : Fault}
    (hp : n.cursor.program.Clean) (hn : n.Coherent) (h : (n.tick input).2 = .error fault) :
    Refusal n.phase input fault := by
  rcases n.tick_cases input with ha | ⟨m, due, hr, he⟩
  · exact refusal_of_answer hp hn ha h
  · rw [he, settle_fails] at h
    rw [← hr.program_eq] at hp
    exact (Cursor.play_ne_fails hp m.plays_stretch fault h).elim

/-- If the check finds no error, a tick fails just when its input is refused in the phase that the
narrator is in. -/
theorem fault_iff_refusal_of_checked {p : Program} (h : (Report.mk 1 p.analyze).hasErrors = false)
    (s : Store) (autoAdvance : Bool) (inputs : List (Option Input)) (input : Option Input)
    (fault : Fault) :
    (((start p s autoAdvance).after inputs).tick input).2 = .error fault ↔
      Refusal ((start p s autoAdvance).after inputs).phase input fault := by
  have hp : ((start p s autoAdvance).after inputs).cursor.program = p := program_after _ inputs
  have hn := coherent_after (coherent_start p s autoAdvance) inputs
  constructor
  · apply refusal_of_tick ?_ hn
    rw [hp]
    exact p.clean_of_analyze h
  · intro hr
    rw [tick_of_refusal hr]

end Narrator

def Program.question : Program :=
  .ofActions "question"
    [.label "top", .message "?", .choices [⟨"again", "top"⟩, ⟨"enough", "end"⟩], .goto "top",
      .label "end"] []

theorem Narrator.question_refuses_third_option :
    (Report.mk 1 Program.question.analyze).hasErrors = false ∧
      (((start .question .empty true).after [none, some .advance]).tick (some (.choose 2))).2 =
        .error (.invalidChoice 2 2) := by
  have hc : (Report.mk 1 Program.question.analyze).hasErrors = false := by decide +kernel
  have hp : ((start .question .empty true).after [none, some .advance]).phase =
      .awaitingChoice 2 := by cbv
  refine ⟨hc, (fault_iff_refusal_of_checked hc .empty true [none, some .advance] _ _).mpr ?_⟩
  rw [hp]
  exact .badIndex (Nat.le_refl 2)

end Dialogue
