import Dialogue.Proofs.Play.Composition
import Dialogue.Proofs.Play.Faults
import Dialogue.Proofs.Play.Reader
import Mathlib.Data.List.Chain
namespace Dialogue

namespace Cue

def choices? : Cue → Option (List Choice)
  | .presentChoices choices => some choices
  | _ => none

def offers? : Cue → Option Bool
  | .presentChoices _ => some true
  | .clearChoices => some false
  | _ => none

theorem offers?_of_setsScene {c : Cue} (h : c.setsScene = true) : c.offers? = none := by
  cases c with
  | presentChoices | clearChoices => cases h
  | _ => rfl

end Cue

namespace Phase

def isChoosing : Phase → Bool
  | .awaitingChoice _ => true
  | _ => false

/-- The cues with which an input ends a wait. -/
def due : Phase → Option Input → List Cue
  | .awaitingAdvance true, some .advance => [.completeReveal]
  | .awaitingChoice _, some (.choose _) => [.clearChoices]
  | _, _ => []

theorem due_none (phase : Phase) : phase.due none = [] := by
  cases phase with
  | awaitingAdvance revealing => cases revealing <;> rfl
  | _ => rfl

end Phase

theorem Course.head?_performed (x : Course) (k : Nat) :
    (x.performed (k + 1)).head? = x.cursor.peek? := by
  rw [performed]
  cases x.cursor.peek? <;> rfl

def Event.cues (e : Event) : List Cue :=
  match e.result with
  | some (.ok t) => t.cues
  | _ => []

theorem Event.cues_ok (n : Narrator) (call : Call) (t : Tick) :
    (Event.mk n call (some (.ok t))).cues = t.cues := rfl

/-- Offers and withdrawals by turns: what is open before some of them, and after. -/
inductive Turns : Bool → List Bool → Bool → Prop
  | stay {a} : Turns a [] a
  | turn {a marks b} (h : Turns (!a) marks b) : Turns a ((!a) :: marks) b

theorem Turns.append {a b c : Bool} {marks later : List Bool} (h : Turns a marks b)
    (hl : Turns b later c) : Turns a (marks ++ later) c := by
  induction h with
  | stay => exact hl
  | turn _ ih => exact .turn (ih hl)

theorem Turns.isChain {a b : Bool} {marks : List Bool} (h : Turns a marks b) :
    List.IsChain (· ≠ ·) (a :: marks) := by
  induction h with
  | stay => exact List.isChain_singleton _
  | turn _ ih => exact List.isChain_cons_cons.mpr ⟨by simp, ih⟩

namespace Narrator

def heard (n : Narrator) (calls : List Call) : List Cue :=
  (n.events calls).flatMap Event.cues

/-- What the last cues of a tick and the narrator after the tick say of each other. -/
structure Closes (m : Narrator) (last : List Cue) : Prop where
  stops : m.phase = .awaitingAdvance true ∨ (∃ count, m.phase = .awaitingChoice count) ∨
    m.phase = .finished
  text : m.phase = .awaitingAdvance true ↔ ∃ content, last = [.showText content]
  choice : ∀ count, m.phase = .awaitingChoice count ↔
    ∃ choices options, last = [.presentChoices choices] ∧ choices.length = count ∧ choices ≠ [] ∧
      m.cursor.current? = some (.choices options) ∧
        choices.map Choice.target = options.map ChoiceOption.target
  finished : m.phase = .finished ↔ last = []

/-- The cues of a tick: what ends the wait comes first, then what sets the scene, and the next wait
last. -/
structure Phrased (n : Narrator) (input : Option Input) (t : Tick) : Prop where
  phase : t.phase = (n.tick input).1.phase
  cues : ∃ scene last, t.cues = n.phase.due input ++ scene ++ last ∧
    (∀ c ∈ scene, c.setsScene = true) ∧
      (n.performed input = [] → scene = [] ∧ last = []) ∧
        (n.performed input ≠ [] → (n.tick input).1.Closes last)

/-- An answer leads behind the first declaration of its label, or to the end where there is none. -/
def GoesTo (n : Narrator) (index : Nat) (label : String) : Prop :=
  match n.cursor.program.actions.idxOf? (.label label) with
  | some k =>
    n.tick (some (.choose index)) =
      ({ n with cursor := { n.cursor with position := some k }, phase := .running } :
        Narrator).proceed [.clearChoices] ∧
      (n.performed (some (.choose index))).head? = n.cursor.program.action? (k + 1)
  | none =>
    n.tick (some (.choose index)) = ({ n with phase := .finished }, .error (.labelNotFound label))

/-- Where a narrator waits for an answer, the choices put on the screen last are those of its place.
-/
def Displays (n : Narrator) (past : List Cue) : Prop :=
  ∀ count, n.phase = .awaitingChoice count →
    ∃ choices options, (past.filterMap Cue.choices?).getLast? = some choices ∧
      choices.length = count ∧ n.cursor.current? = some (.choices options) ∧
        choices.map Choice.target = options.map ChoiceOption.target

variable {n m : Narrator} {input : Option Input} {due last : List Cue} {t : Tick} {s : Stretch}
  {answer : Narrator × Except Fault Tick}

theorem closes_settle (h : s.stop.Closing s.cursor last) (hf : ∀ fault, s.stop ≠ .fails fault) :
    (n.settle due s).1.Closes last := by
  obtain ⟨cues, cursor, store, stop⟩ := s
  cases h with
  | text hc => exact ⟨.inl rfl, by simp [settle], by simp [settle], by simp [settle]⟩
  | @choice options choices hc ho ht =>
    have hl : choices.length = options.length := by simpa using congrArg List.length ht
    have hn : choices ≠ [] := by
      rw [← List.length_pos_iff, hl]
      exact List.length_pos_iff.mpr ho
    refine ⟨.inr (.inl ⟨_, rfl⟩), by simp [settle], ?_, by simp [settle]⟩
    intro count
    constructor
    · intro hp
      cases hp
      exact ⟨choices, options, rfl, hl, hn, hc, ht⟩
    · rintro ⟨_, _, hs, rfl, _⟩
      cases hs
      rw [hl]
      rfl
  | ends hs =>
    cases stop with
    | waits phase => exact (hs phase rfl).elim
    | fails fault => exact (hf fault rfl).elim
    | ends | leaves => exact ⟨.inr (.inr rfl), by simp [settle], by simp [settle], by simp [settle]⟩

theorem settle_ok (h : (n.settle due s).2 = .ok t) : t.cues = due ++ s.cues ∧
    t.phase = (n.settle due s).1.phase ∧ ∀ fault, s.stop ≠ .fails fault := by
  obtain ⟨cues, cursor, store, stop⟩ := s
  cases stop with
  | fails fault => cases h
  | waits | ends | leaves =>
    cases h
    exact ⟨rfl, rfl, nofun⟩

theorem Answers.due_of_ok (h : Answers n input answer) (ha : answer.2 = .ok t) :
    t.cues = n.phase.due input ∧ t.phase = answer.1.phase := by
  cases h with
  | waits =>
    cases ha
    exact ⟨n.phase.due_none.symm, rfl⟩
  | stopped hp | repeated hp | clicked hp | shown hp =>
    cases ha
    rw [hp]
    exact ⟨rfl, rfl⟩
  | @ignored input count hp hc =>
    cases ha
    rw [hp]
    cases input with
    | choose index => exact (hc index rfl).elim
    | advance | revealFinished => exact ⟨rfl, rfl⟩
  | _ => cases ha

theorem Resumes.due_of_phase (h : Resumes n input m due) : due = n.phase.due input := by
  cases h with
  | goes hw =>
    cases hp : n.phase with
    | awaitingAdvance | awaitingChoice => simp [hp, Phase.isWaiting] at hw
    | _ => rfl
  | clicked hp | shown hp | confirmed hp | chosen hp =>
    rw [hp]
    rfl

theorem head?_performed (h : n.opening input = .inr (m, due)) :
    (n.performed input).head? = m.cursor.peek? := by
  obtain ⟨k, hk, _⟩ := Course.exists_succ_of_lt (Course.bound_range_lt m.cursor 0)
  rw [performed, h]
  simp only
  rw [reach, ← Nat.add_zero (_ * _), hk, Course.head?_performed]

theorem performed_eq_nil_iff (h : n.opening input = .inr (m, due)) :
    n.performed input = [] ↔ m.cursor.peek? = none := by
  rw [← List.head?_eq_none_iff, head?_performed h]

theorem phrased_tick (h : (n.tick input).2 = .ok t) : Phrased n input t := by
  have ho := n.opens input
  cases ha : n.opening input with
  | inl answer =>
    rw [ha] at ho
    have ht := tick_of_answer ha
    rw [ht] at h
    have hn : n.performed input = [] := by rw [performed, ha]
    obtain ⟨hc, hp⟩ := ho.due_of_ok h
    refine ⟨by rw [ht, hp], [], [], by simp [hc], List.forall_mem_nil _, ?_, ?_⟩
    · intro _
      exact ⟨rfl, rfl⟩
    · intro hne
      exact (hne hn).elim
  | inr x =>
    obtain ⟨m, due⟩ := x
    rw [ha] at ho
    have ht := tick_of_play ha
    rw [ht] at h
    obtain ⟨hc, hp, hf⟩ := settle_ok h
    obtain ⟨scene, last, hs, hset, hl⟩ := m.plays_stretch.composed
    refine ⟨by rw [ht, hp], scene, last, ?_, hset, ?_, ?_⟩
    · rw [hc, hs, ho.due_of_phase, List.append_assoc]
    · rw [performed_eq_nil_iff ha]
      intro hpeek
      -- The script is at its end, so nothing has been played.
      have he : m.stretch.cues = [] := by rw [stretch, Cursor.play_end hpeek]
      rw [he] at hs
      exact List.append_eq_nil_iff.mp hs.symm
    · intro _
      rw [ht]
      exact closes_settle hl hf

theorem Closes.turns (h : m.Closes last) :
    Turns false (last.filterMap Cue.offers?) m.phase.isChoosing := by
  rcases h.stops with hp | ⟨count, hp⟩ | hp
  · obtain ⟨content, rfl⟩ := h.text.mp hp
    rw [hp]
    exact .stay
  · obtain ⟨choices, _, rfl, _⟩ := (h.choice count).mp hp
    rw [hp]
    exact .turn .stay
  · obtain rfl := h.finished.mp hp
    rw [hp]
    exact .stay

theorem Answers.turns (h : Answers n input answer) (ha : answer.2 = .ok t) :
    Turns n.phase.isChoosing (t.cues.filterMap Cue.offers?) answer.1.phase.isChoosing := by
  cases h with
  | clicked hp | shown hp =>
    cases ha
    rw [hp]
    exact .stay
  | stopped | waits | repeated | ignored =>
    cases ha
    exact .stay
  | _ => cases ha

theorem Resumes.turns (h : Resumes n input m due) :
    Turns n.phase.isChoosing (due.filterMap Cue.offers?) false := by
  cases h with
  | goes hw =>
    cases hp : n.phase with
    | awaitingAdvance | awaitingChoice => simp [hp, Phase.isWaiting] at hw
    | _ => exact .stay
  | clicked hp | shown hp | confirmed hp =>
    rw [hp]
    exact .stay
  | chosen hp =>
    rw [hp]
    exact .turn .stay

theorem turns_tick (h : (n.tick input).2 = .ok t) :
    Turns n.phase.isChoosing (t.cues.filterMap Cue.offers?) (n.tick input).1.phase.isChoosing := by
  rcases n.tick_cases input with ha | ⟨m, due, hr, he⟩
  · exact ha.turns h
  · rw [he] at h ⊢
    obtain ⟨hc, _, hf⟩ := settle_ok h
    obtain ⟨scene, last, hs, hset, hl⟩ := m.plays_stretch.composed
    have hm : scene.filterMap Cue.offers? = [] := by
      rw [List.filterMap_eq_nil_iff]
      intro c hc
      exact Cue.offers?_of_setsScene (hset c hc)
    rw [hc, hs, List.filterMap_append, List.filterMap_append, hm, List.nil_append]
    exact hr.turns.append (closes_settle hl hf).turns

theorem heard_cons (n : Narrator) (call : Call) (calls : List Call) :
    n.heard (call :: calls) =
      (Event.mk n call (n.answer? call)).cues ++ (n.obey call).heard calls := rfl

theorem heard_of_finished (h : n.phase = .finished) (inputs : List (Option Input)) :
    n.heard (inputs.map .tick) = [] := by
  induction inputs with
  | nil => rfl
  | cons input inputs ih =>
    have ht := tick_of_finished h input
    rw [List.map_cons, heard_cons, obey, ht, ih, List.append_nil, answer?, ht]
    cases input <;> rfl

theorem turns_heard (n : Narrator) (inputs : List (Option Input)) :
    ∃ b, Turns n.phase.isChoosing ((n.heard (inputs.map .tick)).filterMap Cue.offers?) b := by
  induction inputs generalizing n with
  | nil => exact ⟨_, .stay⟩
  | cons input inputs ih =>
    rw [List.map_cons, heard_cons, obey, List.filterMap_append, answer?]
    obtain ⟨b, hb⟩ := ih (n.tick input).1
    cases ht : (n.tick input).2 with
    | ok t => exact ⟨b, (turns_tick ht).append hb⟩
    | error fault =>
      -- A failure shows nothing; it may end the script with a choice still on the screen.
      rcases tick_of_fault ht with he | hf
      · rw [he] at hb ⊢
        exact ⟨b, hb⟩
      · rw [heard_of_finished hf]
        exact ⟨_, .stay⟩

theorem Displays.answers {past : List Cue} (h : n.Displays past) (ha : Answers n input answer) :
    answer.1.Displays (past ++ (Event.mk n (.tick input) (some answer.2)).cues) := by
  intro count hp
  cases ha with
  | stopped | ended | waits | repeated | ignored | badIndex | astray | notChoosing =>
    obtain ⟨choices, options, hd⟩ := h count hp
    rw [Event.cues, List.append_nil]
    exact ⟨choices, options, hd⟩
  | clicked | shown | lost => cases hp

theorem Displays.settle (past : List Cue) : (m.settle due m.stretch).1.Displays
    (past ++ (Event.mk n (.tick input) (some (m.settle due m.stretch).2)).cues) := by
  intro count hp
  cases hs : (m.settle due m.stretch).2 with
  | error fault =>
    rw [settle_of_fails (settle_fails.mp hs)] at hp
    cases hp
  | ok t =>
    obtain ⟨hc, _, hf⟩ := settle_ok hs
    obtain ⟨scene, last, he, _, hl⟩ := m.plays_stretch.composed
    obtain ⟨choices, options, rfl, hn, _, ho, ht⟩ := ((closes_settle hl hf).choice count).mp hp
    refine ⟨choices, options, ?_, hn, ho, ht⟩
    rw [Event.cues_ok, hc, he]
    simp [Cue.choices?]

theorem Displays.obey {past : List Cue} (h : n.Displays past) (call : Call) :
    (n.obey call).Displays (past ++ (Event.mk n call (n.answer? call)).cues) := by
  cases call with
  | reset p =>
    intro count hp
    cases hp
  | tick input =>
    rw [Narrator.obey, answer?]
    rcases n.tick_cases input with ha | ⟨m, due, _, he⟩
    · exact h.answers ha
    · rw [he]
      exact Displays.settle past

theorem Displays.follow {past : List Cue} (h : n.Displays past) (calls : List Call) :
    (n.follow calls).Displays (past ++ n.heard calls) := by
  induction calls generalizing n past with
  | nil =>
    rw [heard, events, List.flatMap_nil, List.append_nil]
    exact h
  | cons call calls ih =>
    rw [heard_cons, ← List.append_assoc]
    exact ih (h.obey call)

theorem opening_choose {count index : Nat} {label : String} (hp : n.phase = .awaitingChoice count)
    (hi : index < count) (ht : n.target index = .ok label) :
    n.opening (some (.choose index)) = match n.cursor.jump? label with
      | some c => .inr ({ n with cursor := c, phase := .running }, [.clearChoices])
      | none => .inl ({ n with phase := .finished }, .error (.labelNotFound label)) := by
  rw [opening_of_some (by simp [hp])]
  simp only [receive, hp, choose, if_neg (Nat.not_le_of_lt hi), ht]
  cases n.cursor.jump? label <;> rfl

theorem goesTo_of_target {count index : Nat} {label : String}
    (hp : n.phase = .awaitingChoice count) (hi : index < count)
    (ht : n.target index = .ok label) (hx : n.cursor.program.Indexed) : n.GoesTo index label := by
  have ho := opening_choose hp hi ht
  rw [Cursor.jump?, hx.label?_eq, Program.behind?] at ho
  rw [GoesTo]
  cases hk : n.cursor.program.actions.idxOf? (.label label) with
  | none =>
    simp only [hk, Option.map_none] at ho
    exact tick_of_answer ho
  | some k =>
    simp only [hk, Option.map_some, Nat.add_eq_zero_iff, Nat.one_ne_zero, and_false, if_false,
      Nat.add_sub_cancel] at ho
    exact ⟨tick_of_play ho, head?_performed ho⟩

/-- A tick ends the wait that was over, sets the scene, and shows the text or the choices it waits
at. -/
theorem cues_phrased (p : Program) (s : Store) (autoAdvance : Bool) (calls : List Call) :
    let n := (start p s autoAdvance).follow calls
    (∀ input t, (n.tick input).2 = .ok t → n.Phrased input t) ∧
      (∀ inputs : List (Option Input), List.IsChain (· ≠ ·)
        (n.phase.isChoosing :: (n.heard (inputs.map .tick)).filterMap Cue.offers?)) ∧
      (n.cursor.program.Indexed → ∀ count, n.phase = .awaitingChoice count →
        ∃ choices,
          (((start p s autoAdvance).heard calls).filterMap Cue.choices?).getLast? = some choices ∧
          choices.length = count ∧
            ∀ index choice, choices[index]? = some choice → n.GoesTo index choice.target) := by
  intro n
  refine ⟨?_, ?_, ?_⟩
  · intro input t h
    exact phrased_tick h
  · intro inputs
    obtain ⟨b, hb⟩ := n.turns_heard inputs
    exact hb.isChain
  · intro hx count hp
    have hd : (start p s autoAdvance).Displays [] := nofun
    obtain ⟨choices, options, hc, hl, ho, ht⟩ := hd.follow calls count hp
    refine ⟨choices, hc, hl, ?_⟩
    intro index choice hi
    have hlt : index < count := hl ▸ (List.getElem?_eq_some_iff.mp hi).1
    have htarget : (options.map ChoiceOption.target)[index]? = some choice.target := by
      rw [← ht, List.getElem?_map, hi]
      rfl
    rw [List.getElem?_map] at htarget
    obtain ⟨o, hoi, heq⟩ := Option.map_eq_some_iff.mp htarget
    apply goesTo_of_target hp hlt _ hx
    rw [target, ho]
    simp only [hoi, heq]

end Narrator

end Dialogue
