import Dialogue.Proofs.Play.Course
namespace Dialogue

inductive Call where
  | tick (input : Option Input)
  | reset (program : Program)

def Action.change? : Action → Option SceneChange
  | .scene name script => some ⟨name, script⟩
  | _ => none

def Stop.change? : Stop → Option SceneChange
  | .leaves change => some change
  | _ => none

theorem Action.change?_of_leave {a : Action} {change : SceneChange} (h : a.next = .leave change) :
    a.change? = some change := by
  cases a with
  | scene name script =>
    cases h
    rfl
  | choices options =>
    rw [next] at h
    split at h <;> cases h
  | _ => cases h

theorem Action.change?_eq_none {a : Action} (h : ∀ change, a.next ≠ .leave change) :
    a.change? = none := by
  cases a with
  | scene name script => exact (h _ rfl).elim
  | _ => rfl

namespace Course

/-- The actions that a course with a guard takes, at most so many. -/
def performed : Nat → Course → List Action
  | 0, _ => []
  | k + 1, x =>
    match x.cursor.peek? with
    | none => []
    | some a =>
      a :: match x.step true with
        | .inl _ => []
        | .inr y => performed k y

theorem change?_of_step {x : Course} {a : Action} (hp : x.cursor.peek? = some a) :
    a.change? = match x.step true with
      | .inl s => s.stop.change?
      | .inr _ => none := by
  rw [step]
  simp only [hp]
  cases hn : a.next with
  | leave change =>
    rw [Action.change?_of_leave hn]
    rfl
  | jump target =>
    rw [Action.change?_eq_none (by simp [hn])]
    dsimp only
    cases true && x.taken.contains x.cursor.next with
    | true => rfl
    | false => cases x.cursor.reached.jump? target <;> rfl
  | proceed | wait => exact Action.change?_eq_none (by simp [hn])

theorem changes_performed {k : Nat} {x : Course} {s : Stretch} (h : x.run true k = some s) :
    (x.performed k).filterMap Action.change? = s.stop.change?.toList := by
  induction k generalizing x with
  | zero => cases h
  | succ k ih =>
    rw [performed]
    cases hp : x.cursor.peek? with
    | none =>
      have hs : x.step true = .inl ⟨x.cues, x.cursor, x.store, .ends⟩ := by
        simp only [step, hp]
      rw [run_stop hs] at h
      cases h
      rfl
    | some a =>
      have hc := change?_of_step hp
      cases hs : x.step true with
      | inl t =>
        rw [run_stop hs] at h
        cases h
        rw [hs] at hc
        dsimp only at hc ⊢
        rw [← hc, List.filterMap_cons]
        cases a.change? <;> rfl
      | inr y =>
        rw [run_step hs] at h
        rw [hs] at hc
        dsimp only at hc ⊢
        rw [List.filterMap_cons_none hc]
        exact ih h

end Course

def changeOf : Except Fault Tick → Option SceneChange
  | .ok t => t.change
  | .error _ => none

namespace Narrator

def obey (n : Narrator) : Call → Narrator
  | .tick input => (n.tick input).1
  | .reset p => n.reset p

def follow (n : Narrator) (calls : List Call) : Narrator :=
  calls.foldl obey n

/-- The actions that a tick takes. -/
def performed (n : Narrator) (input : Option Input) : List Action :=
  match n.opening input with
  | .inl _ => []
  | .inr (m, _) => (Course.mk [] m.cursor m.store []).performed m.reach

theorem changeOf_settle (n : Narrator) (due : List Cue) (s : Stretch) :
    changeOf (n.settle due s).2 = s.stop.change? := by
  rw [settle]
  cases s.stop <;> rfl

theorem Answers.changeOf_eq {n : Narrator} {input : Option Input}
    {answer : Narrator × Except Fault Tick} (h : Answers n input answer) :
    changeOf answer.2 = none := by
  cases h <;> rfl

/-- A tick reports the changes of scene that it comes to, each one once. -/
theorem changeOf_tick (n : Narrator) (input : Option Input) :
    (changeOf (n.tick input).2).toList = (n.performed input).filterMap Action.change? := by
  have h := n.opens input
  rw [performed]
  cases ha : n.opening input with
  | inl answer =>
    rw [ha] at h
    rw [tick_of_answer ha, h.changeOf_eq]
    rfl
  | inr p =>
    have hr := p.1.run_guarded_stretch 0
    rw [Nat.add_zero] at hr
    rw [tick_of_play ha, changeOf_settle, Course.changes_performed hr]

theorem finished_of_change {n : Narrator} {input : Option Input} {change : SceneChange}
    (h : changeOf (n.tick input).2 = some change) : (n.tick input).1.phase = .finished := by
  rcases n.tick_cases input with ha | ⟨m, due, _, he⟩
  · rw [ha.changeOf_eq] at h
    cases h
  · rw [he, changeOf_settle] at h
    rw [he, settle]
    cases hs : m.stretch.stop with
    | leaves => rfl
    | waits | ends | fails => simp [hs, Stop.change?] at h

theorem Answers.autoAdvance_eq {n : Narrator} {input : Option Input}
    {answer : Narrator × Except Fault Tick} (h : Answers n input answer) :
    answer.1.autoAdvance = n.autoAdvance := by
  cases h <;> rfl

theorem Resumes.autoAdvance_eq {n m : Narrator} {input : Option Input} {due : List Cue}
    (h : Resumes n input m due) : m.autoAdvance = n.autoAdvance := by
  cases h <;> rfl

theorem autoAdvance_settle (n : Narrator) (due : List Cue) (s : Stretch) :
    (n.settle due s).1.autoAdvance = n.autoAdvance := by
  rw [settle]
  cases s.stop <;> rfl

theorem autoAdvance_obey (n : Narrator) (call : Call) :
    (n.obey call).autoAdvance = n.autoAdvance := by
  cases call with
  | reset p => rfl
  | tick input =>
    rw [obey]
    rcases n.tick_cases input with ha | ⟨m, due, hr, he⟩
    · exact ha.autoAdvance_eq
    · rw [he, autoAdvance_settle]
      exact hr.autoAdvance_eq

theorem coherent_obey {n : Narrator} (h : n.Coherent) (call : Call) : (n.obey call).Coherent := by
  cases call with
  | tick input => exact coherent_tick h input
  | reset p => exact coherent_reset n p

theorem Coherent.ne_notAtChoice {n : Narrator} (h : n.Coherent) (input : Option Input)
    (kind : Option String) : (n.tick input).2 ≠ .error (.notAtChoice kind) := by
  rcases n.tick_cases input with ha | ⟨m, due, _, he⟩
  · generalize hn : n.tick input = answer at ha
    cases ha with
    | astray hp hi ht =>
      obtain ⟨_, o, _, _, ho⟩ := h.target_eq hp hi
      cases ht.symm.trans ho
    | _ => simp
  · rw [he, ne_eq, settle_fails]
    intro hs
    rcases m.plays_stretch.fault_cases hs with ⟨label, hl⟩ | ⟨label, hl⟩ <;> cases hl

theorem tick_of_finished {n : Narrator} (h : n.phase = .finished) (input : Option Input) :
    n.tick input = (n, match input with
      | none => .ok ⟨[], .finished, none⟩
      | some _ => .error .scriptEnded) := by
  apply tick_of_answer
  simp only [opening, isFinished, h, Phase.isFinished, if_true]
  cases input <;> rfl

theorem after_of_finished {n : Narrator} (h : n.phase = .finished) (inputs : List (Option Input)) :
    n.after inputs = n := by
  induction inputs with
  | nil => rfl
  | cons input inputs ih =>
    rw [after, List.foldl_cons, tick_of_finished h]
    exact ih

theorem coherent_follow {n : Narrator} (h : n.Coherent) (calls : List Call) :
    (n.follow calls).Coherent := by
  induction calls generalizing n with
  | nil => exact h
  | cons call calls ih => exact ih (coherent_obey h call)

theorem autoAdvance_follow (n : Narrator) (calls : List Call) :
    (n.follow calls).autoAdvance = n.autoAdvance := by
  induction calls generalizing n with
  | nil => rfl
  | cons call calls ih => exact (ih _).trans (n.autoAdvance_obey call)

/-- Whatever is asked of a narrator, its phase fits the place of the script, and each change of
scene is reported once. -/
theorem follow_consistent (p : Program) (s : Store) (autoAdvance : Bool) (calls : List Call) :
    let n := (start p s autoAdvance).follow calls
    (n.Coherent ∧ n.autoAdvance = autoAdvance) ∧
      (∀ input kind, (n.tick input).2 ≠ .error (.notAtChoice kind)) ∧
      (n.phase = .finished → (∀ inputs, n.after inputs = n) ∧
        ∀ input, n.tick input = (n, match input with
          | none => .ok ⟨[], .finished, none⟩
          | some _ => .error .scriptEnded)) ∧
      ∀ input, (changeOf (n.tick input).2).toList = (n.performed input).filterMap Action.change? ∧
        ∀ change, changeOf (n.tick input).2 = some change → (n.tick input).1.phase = .finished := by
  intro n
  have hc : n.Coherent := coherent_follow (coherent_start p s autoAdvance) calls
  refine ⟨⟨hc, autoAdvance_follow _ calls⟩, hc.ne_notAtChoice, ?_, ?_⟩
  · intro hf
    exact ⟨after_of_finished hf, tick_of_finished hf⟩
  · intro input
    refine ⟨n.changeOf_tick input, ?_⟩
    intro change h
    exact finished_of_change h

end Narrator

end Dialogue
