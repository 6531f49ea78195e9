import Dialogue.Proofs.Play.Composition
import Dialogue.Proofs.Play.Reader
namespace Dialogue

/-- Whether a cue comes from an action of the script; the others end a wait. -/
def Cue.ofAction : Cue → Bool
  | .completeReveal => false
  | .clearChoices => false
  | _ => true

theorem Cue.ofAction_of_setsScene {c : Cue} (h : c.setsScene = true) : c.ofAction = true := by
  cases c with
  | completeReveal | clearChoices => cases h
  | _ => rfl

theorem Stretch.Composed.all_ofAction {st : Stretch} (h : st.Composed) :
    st.cues.all Cue.ofAction = true := by
  obtain ⟨scene, last, hc, hs, hl⟩ := h
  rw [hc, List.all_append, Bool.and_eq_true, List.all_eq_true]
  constructor
  · intro c hm
    exact Cue.ofAction_of_setsScene (hs c hm)
  · generalize st.stop = stop at hl
    cases hl <;> rfl

def actionCues : Except Fault Tick → List Cue
  | .ok t => t.cues.filter Cue.ofAction
  | .error _ => []

def Input.answer? : Input → Option Nat
  | .choose index => some index
  | _ => none

/-- The answer to a choice, where a tick accepts it. -/
def picked (input : Option Input) : Except Fault Tick → List Nat
  | .ok _ => (input.bind Input.answer?).toList
  | .error _ => []

/-- Whether a tick fails for want of a label or of progress, which ends the script. -/
def fatal : Except Fault Tick → Bool
  | .error (.labelNotFound _) => true
  | .error (.noProgress _) => true
  | _ => false

namespace Narrator

/-- The inputs of some ticks, each with the result of its tick. -/
def transcript (n : Narrator) : List (Option Input) → List (Option Input × Except Fault Tick)
  | [] => []
  | input :: inputs => (input, (n.tick input).2) :: (n.tick input).1.transcript inputs

/-- A reader who has come as far as a narrator. -/
structure ReadBy (p : Program) (n : Narrator) (r : Reader) : Prop where
  program : n.cursor.program = p
  store : r.store = n.store
  place : n.phase ≠ .finished → r.answers = [] ∧ r.visits.getLast? = n.cursor.position
  finished : n.phase = .finished → r.visit? p = none

variable {p : Program} {n m : Narrator} {r : Reader} {input : Option Input} {due : List Cue}

theorem readBy_start (p : Program) (s : Store) (autoAdvance : Bool) :
    (start p s autoAdvance).ReadBy p (.start s []) where
  program := rfl
  store := rfl
  place _ := ⟨rfl, rfl⟩
  finished := nofun

theorem Resumes.due_eq (h : Resumes n input m due) : due.filter Cue.ofAction = [] := by
  cases h <;> rfl

theorem Resumes.store_eq (h : Resumes n input m due) : m.store = n.store := by
  cases h <;> rfl

theorem ReadBy.place?_message (h : n.ReadBy p r) (hc : n.Coherent) {revealing : Bool}
    (hp : n.phase = .awaitingAdvance revealing) :
    r.place? p = some (n.cursor.next, []) := by
  obtain ⟨ha, hv⟩ := h.place (by simp [hp])
  obtain ⟨content, hm⟩ := hc.message hp
  obtain ⟨i, hi, hm⟩ := Option.bind_eq_some_iff.mp hm
  rw [hi] at hv
  rw [h.program] at hm
  rw [Reader.place?_message hv hm, ha, Cursor.next, hi]

theorem ReadBy.place?_of_resumes (h : n.ReadBy p r) (hi : p.Indexed) (hc : n.Coherent)
    (hr : Resumes n input m due) :
    (r.told (input.bind Input.answer?).toList).place? p = some (m.cursor.next, []) := by
  cases hr with
  | goes hw hf hn =>
    have hp : n.cursor.position = none := by
      rw [Coherent] at hc
      cases hp : n.phase with
      | idle => simpa only [hp] using hc
      | running => simp only [hp] at hc
      | finished => exact (hf hp).elim
      | awaitingAdvance | awaitingChoice => simp [hp, Phase.isWaiting] at hw
    obtain ⟨ha, hv⟩ := h.place hf
    rw [hp, List.getLast?_eq_none_iff] at hv
    have hi : input.bind Input.answer? = none := by
      rcases input with _ | _ | _ | index
      case some.choose => exact (hn index rfl).elim
      all_goals rfl
    rw [hi, Cursor.next, hp]
    refine Reader.place?_told (Reader.place?_start hv) [] |>.trans ?_
    rw [ha]
    rfl
  | clicked hp => exact Reader.place?_told (h.place?_message hc hp) []
  | shown hp => exact Reader.place?_told (h.place?_message hc hp) []
  | confirmed hp => exact Reader.place?_told (h.place?_message hc hp) []
  | @chosen count index label c hp hx ht hj =>
    obtain ⟨ha, hv⟩ := h.place (by simp [hp])
    obtain ⟨options, hm, _, rfl⟩ := hc.choices hp
    have ho : options[index]? = some options[index] := List.getElem?_eq_getElem hx
    have ht' : n.target index = .ok options[index].target := by
      simp only [target, hm, ho]
    cases ht.symm.trans ht'
    obtain ⟨i, hi', hm⟩ := Option.bind_eq_some_iff.mp hm
    rw [hi'] at hv
    have hl : p.behind? options[index].target = some c.next := by
      rw [← hi.label?_eq, ← h.program]
      exact Cursor.next_jump hj
    rw [h.program] at hm
    have hr : (r.told [index]).answers = [index] := by
      rw [Reader.told, ha]
      rfl
    refine (Reader.place?_choices (r := r.told [index]) hv hm ho hr).trans ?_
    rw [hl]
    rfl

theorem Answers.quiet {answer : Narrator × Except Fault Tick} (h : Answers n input answer)
    (hf : fatal answer.2 = false) : actionCues answer.2 = [] ∧ picked input answer.2 = [] ∧
      answer.1.cursor = n.cursor ∧ answer.1.store = n.store ∧
        (answer.1.phase = .finished ↔ n.phase = .finished) := by
  cases h with
  | lost => cases hf
  | @ignored input count hp hc =>
    have hi : input.answer? = none := by
      cases input with
      | choose index => exact (hc index rfl).elim
      | _ => rfl
    simp [actionCues, picked, hi]
  | clicked hp | shown hp =>
    rw [hp]
    exact ⟨rfl, rfl, rfl, rfl, by simp⟩
  | _ => exact ⟨rfl, rfl, rfl, rfl, .rfl⟩

theorem ReadBy.of_quiet (h : n.ReadBy p r) (hc : m.cursor = n.cursor) (hs : m.store = n.store)
    (hp : m.phase = .finished ↔ n.phase = .finished) : m.ReadBy p r where
  program := hc ▸ h.program
  store := h.store.trans hs.symm
  place hf := hc ▸ h.place (mt hp.mpr hf)
  finished hf := h.finished (hp.mp hf)

theorem stop_ne_fails (hf : fatal (m.settle due m.stretch).2 = false) (fault : Fault) :
    m.stretch.stop ≠ .fails fault := by
  intro hs
  rw [settle_fails.mpr hs] at hf
  rcases m.plays_stretch.fault_cases hs with ⟨label, rfl⟩ | ⟨label, rfl⟩ <;> cases hf

theorem readBy_settle {cues : List Cue} (hp : m.cursor.program = p)
    (hf : ∀ fault, m.stretch.stop ≠ .fails fault) (hr : m.stretch.ReadTo p cues r) :
    (m.settle due m.stretch).1.ReadBy p r := by
  have hp' : m.stretch.cursor.program = p := m.plays_stretch.program_eq.trans hp
  rw [settle]
  cases hs : m.stretch.stop with
  | fails fault => exact (hf fault hs).elim
  | waits phase =>
    refine ⟨hp', hr.store, fun _ => hr.place phase hs, ?_⟩
    intro he
    obtain ⟨a, _, hn⟩ := m.plays_stretch.current_of_waits hs
    rcases Action.eq_of_next_wait hn with ⟨_, rfl⟩ | ⟨_, _, _, rfl⟩ <;> cases he
  | ends | leaves =>
    refine ⟨hp', hr.store, fun he => (he rfl).elim, ?_⟩
    intro _
    exact hr.finished (by simp [hs])

theorem result_settle (input : Option Input) (hd : due.filter Cue.ofAction = [])
    (hf : ∀ fault, m.stretch.stop ≠ .fails fault) :
    actionCues (m.settle due m.stretch).2 = m.stretch.cues ∧
      picked input (m.settle due m.stretch).2 = (input.bind Input.answer?).toList := by
  have hc : (due ++ m.stretch.cues).filter Cue.ofAction = m.stretch.cues := by
    rw [List.filter_append, hd, List.nil_append, List.filter_eq_self]
    exact List.all_eq_true.mp m.plays_stretch.composed.all_ofAction
  rw [settle]
  cases hs : m.stretch.stop with
  | fails fault => exact (hf fault hs).elim
  | waits | ends | leaves => exact ⟨hc, rfl⟩

/-- One tick is read by some visits, with the answer to the choice if one was given. -/
theorem ReadBy.tick (h : n.ReadBy p r) (hi : p.Indexed) (hc : n.Coherent)
    (hf : fatal (n.tick input).2 = false) :
    ∃ k q, (r.told (picked input (n.tick input).2)).read p k = some q ∧
      (n.tick input).1.ReadBy p q ∧ q.cues = r.cues ++ actionCues (n.tick input).2 := by
  rcases n.tick_cases input with ha | ⟨m, due, hr, he⟩
  · obtain ⟨hs, hp, hcur, hst, hph⟩ := ha.quiet hf
    rw [hs, hp]
    refine ⟨0, r.told [], rfl, ?_, (List.append_nil _).symm⟩
    rw [Reader.told, List.append_nil]
    exact h.of_quiet hcur hst hph
  · rw [he] at hf ⊢
    have hn := stop_ne_fails hf
    obtain ⟨hs, hp⟩ := result_settle input hr.due_eq hn
    have hm : m.cursor.program = p := hr.program_eq.trans h.program
    have hq := h.place?_of_resumes hi hc hr
    have hst : r.store = m.store := h.store.trans hr.store_eq.symm
    rw [hs, hp]
    rw [← hm] at hi hq ⊢
    obtain ⟨k, q, hk, hr'⟩ := m.plays_stretch.read hi hn hq hst
    exact ⟨k, q, hk, readBy_settle rfl hn hr', hr'.cues⟩

theorem ReadBy.after (h : n.ReadBy p r) (hi : p.Indexed) (hc : n.Coherent)
    {inputs : List (Option Input)} (hf : ∀ e ∈ n.transcript inputs, fatal e.2 = false) :
    ∃ k q, (r.told ((n.transcript inputs).flatMap fun e => picked e.1 e.2)).read p k = some q ∧
      (n.after inputs).ReadBy p q ∧
        q.cues = r.cues ++ (n.transcript inputs).flatMap fun e => actionCues e.2 := by
  induction inputs generalizing n r with
  | nil =>
    refine ⟨0, r.told [], rfl, ?_, (List.append_nil _).symm⟩
    rw [Reader.told, List.append_nil]
    exact h
  | cons input inputs ih =>
    rw [transcript, List.forall_mem_cons] at hf
    obtain ⟨j, r', hj, hr', hcj⟩ := h.tick hi hc hf.1
    obtain ⟨k, q, hk, hq, hck⟩ := ih hr' (coherent_tick hc input) hf.2
    refine ⟨j + k, q, ?_, hq, ?_⟩
    · have hj' := Reader.read_told hj
        (((n.tick input).1.transcript inputs).flatMap fun e => picked e.1 e.2)
      rw [Reader.read_add, transcript, List.flatMap_cons, ← Reader.told_told, hj']
      exact hk
    · rw [hck, hcj, transcript, List.flatMap_cons, List.append_assoc]

/-- Where ticks begin and end does not show: a reader who takes one action after the other comes to
the same. -/
theorem after_eq_read (hi : p.Indexed) (s : Store) (autoAdvance : Bool)
    (inputs : List (Option Input))
    (hf : ∀ e ∈ (start p s autoAdvance).transcript inputs, fatal e.2 = false) :
    let ticks := (start p s autoAdvance).transcript inputs
    let n := (start p s autoAdvance).after inputs
    ∃ k r, (Reader.start s (ticks.flatMap fun e => picked e.1 e.2)).read p k = some r ∧
      (ticks.flatMap fun e => actionCues e.2) = r.cues ∧
      n.store = r.store ∧
      n.store = ((r.visits.filterMap p.action?).flatMap Action.edits).foldl Store.edit s ∧
      (n.phase ≠ .finished → r.answers = [] ∧ r.visits.getLast? = n.cursor.position) ∧
      (n.phase = .finished → r.visit? p = none) := by
  intro ticks n
  obtain ⟨k, r, hk, hr, hc⟩ := (readBy_start p s autoAdvance).after hi (coherent_start ..) hf
  have hs : r.store = (r.edits p).foldl Store.edit s := Reader.store_read hk rfl
  exact ⟨k, r, hk, hc.symm, hr.store.symm, hr.store.symm.trans hs, hr.place, hr.finished⟩

end Narrator

def Action.roundsChoice : Action :=
  .choices [⟨"again {n}", "top"⟩, ⟨"enough", "out"⟩]

def Program.rounds : Program :=
  .ofActions "rounds"
    [.setVariables [⟨"n", "1"⟩, ⟨"t", "bye"⟩], .label "top",
      .addVariables [⟨"n", "2"⟩, ⟨"n", "x"⟩, ⟨"t", "!"⟩], .roundsChoice, .label "end",
      .speaker "", .message "{t} {n}", .label "out", .goto "end"] []

def Cue.roundsChoice (count : String) : Cue :=
  .presentChoices [⟨"again " ++ count, "top"⟩, ⟨"enough", "out"⟩]

def Store.rounds (n : Int64) (t : String) : Store :=
  (Table.empty.insert "n" (.int n)).insert "t" (.string t)

namespace Narrator

/-- The rounds, played up to an action. -/
def rounds (n : Int64) (t : String) (position : Nat) (phase : Phase) : Narrator :=
  ⟨⟨.rounds, some position⟩, .rounds n t, phase, true⟩

theorem rounds_start : (start .rounds .empty true).tick none =
    (rounds 3 "bye!" 3 (.awaitingChoice 2),
      .ok ⟨[.roundsChoice "3"], .awaitingChoice 2, none⟩) := by
  have hp := proceed_of_plays (n := start .rounds .empty true)
    (.proceeds rfl rfl (.proceeds rfl rfl (.proceeds rfl rfl (.waits rfl rfl)))) []
  have hc : Action.roundsChoice.cues (.rounds 3 "bye!") = [.roundsChoice "3"] := by
    decide +kernel
  rw [← hc]
  exact hp

theorem rounds_again : (rounds 3 "bye!" 3 (.awaitingChoice 2)).tick (some (.choose 0)) =
    (rounds 5 "bye!!" 3 (.awaitingChoice 2),
      .ok ⟨[.clearChoices, .roundsChoice "5"], .awaitingChoice 2, none⟩) := by
  have hp := proceed_of_plays (n := rounds 3 "bye!" 1 .running)
    (.proceeds rfl rfl (.waits rfl rfl)) [.clearChoices]
  have hc : Action.roundsChoice.cues (.rounds 5 "bye!!") = [.roundsChoice "5"] := by
    decide +kernel
  rw [← hc]
  exact hp

theorem rounds_enough : (rounds 5 "bye!!" 3 (.awaitingChoice 2)).tick (some (.choose 1)) =
    (rounds 5 "bye!!" 6 (.awaitingAdvance true),
      .ok ⟨[.clearChoices, .showSpeaker none, .showText "bye!! 5"], .awaitingAdvance true,
        none⟩) := by
  have hp := proceed_of_plays (n := rounds 5 "bye!!" 7 .running)
    (.jumps rfl rfl (by decide) rfl (.proceeds rfl rfl (.waits rfl rfl))) [.clearChoices]
  have hc : (Action.speaker "").cues (.rounds 5 "bye!!") ++
      (Action.message "{t} {n}").cues (.rounds 5 "bye!!") =
        [.showSpeaker none, .showText "bye!! 5"] := by
    decide +kernel
  rw [← hc]
  exact hp

/-- A round through a choice and one out of it, with a refused index, an ignored input and a refused
addition. -/
theorem rounds_read :
    let inputs := [none, some (.choose 7), some (.choose 0), some .revealFinished,
      some (.choose 1)]
    (Program.rounds.Indexed ∧
      ∀ e ∈ (start .rounds .empty true).transcript inputs, fatal e.2 = false) ∧
    ∃ k r, (Reader.start .empty [0, 1]).read .rounds k = some r ∧
      r.cues = [.roundsChoice "3", .roundsChoice "5", .showSpeaker none, .showText "bye!! 5"] ∧
      r.visits.getLast? = some 6 ∧
      r.store.get? "n" = some (.int 5) ∧ r.store.get? "t" = some (.string "bye!!") ∧
      r.store = ((r.visits.filterMap Program.rounds.action?).flatMap Action.edits).foldl
        Store.edit .empty := by
  intro inputs
  have hi : Program.rounds.Indexed := rfl
  have h₁ : (rounds 3 "bye!" 3 (.awaitingChoice 2)).tick (some (.choose 7)) =
      (rounds 3 "bye!" 3 (.awaitingChoice 2), .error (.invalidChoice 7 2)) := rfl
  have h₃ : (rounds 5 "bye!!" 3 (.awaitingChoice 2)).tick (some .revealFinished) =
      (rounds 5 "bye!!" 3 (.awaitingChoice 2), .ok ⟨[], .awaitingChoice 2, none⟩) := rfl
  have ht : (start .rounds .empty true).transcript inputs = [
      (none, .ok ⟨[.roundsChoice "3"], .awaitingChoice 2, none⟩),
      (some (.choose 7), .error (.invalidChoice 7 2)),
      (some (.choose 0), .ok ⟨[.clearChoices, .roundsChoice "5"], .awaitingChoice 2, none⟩),
      (some .revealFinished, .ok ⟨[], .awaitingChoice 2, none⟩),
      (some (.choose 1), .ok ⟨[.clearChoices, .showSpeaker none, .showText "bye!! 5"],
        .awaitingAdvance true, none⟩)] := by
    simp only [inputs, transcript, rounds_start, h₁, rounds_again, h₃, rounds_enough]
  have hn : (start .rounds .empty true).after inputs =
      rounds 5 "bye!!" 6 (.awaitingAdvance true) := by
    simp only [inputs, after, List.foldl_cons, List.foldl_nil, rounds_start, h₁, rounds_again, h₃,
      rounds_enough]
  have hf : ∀ e ∈ (start .rounds .empty true).transcript inputs, fatal e.2 = false := by
    rw [ht]
    simp [fatal]
  obtain ⟨k, r, hk, hr, hs, he, hv, _⟩ := after_eq_read hi .empty true inputs hf
  rw [ht] at hk hr
  rw [hn] at hs he hv
  refine ⟨⟨hi, hf⟩, k, r, hk, hr.symm, (hv nofun).2, ?_, ?_, hs.symm.trans he⟩
  · rw [← hs]
    rfl
  · rw [← hs]
    rfl

end Narrator

end Dialogue
