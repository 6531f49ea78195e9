import Dialogue.Play.Effect
import Dialogue.Script.Cursor
namespace Dialogue

inductive Stop where
  | waits (phase : Phase)
  | ends
  | leaves (change : SceneChange)
  | fails (fault : Fault)
deriving DecidableEq, Repr

structure Stretch where
  cues : List Cue
  cursor : Cursor
  store : Store
  stop : Stop

def Stretch.after (cues : List Cue) (s : Stretch) : Stretch :=
  { s with cues := cues ++ s.cues }

/-- Plays on until the script waits, leaves, ends or fails; a jump is taken only once, from the
places in `fresh`. -/
def Cursor.play (fresh : List Nat) (c : Cursor) (s : Store) : Stretch :=
  match _h : c.peek? with
  | none => ⟨[], c, s, .ends⟩
  | some a =>
    let here : Cursor := { c with position := some c.next }
    let t := a.update s
    match a.next with
    | .proceed => (play fresh here t).after (a.cues s)
    | .wait phase => ⟨a.cues s, here, t, .waits phase⟩
    | .leave change => ⟨a.cues s, here, t, .leaves change⟩
    | .jump target =>
      -- There are no conditions: a jump that is taken for a second time never comes to a wait.
      if c.next ∈ fresh then
        match here.jump? target with
        | some there => (play (fresh.erase c.next) there t).after (a.cues s)
        | none => ⟨a.cues s, here, t, .fails (.labelNotFound target)⟩
      else ⟨a.cues s, here, t, .fails (.noProgress target)⟩
termination_by (fresh.length, c.program.size - c.next)
decreasing_by
  · apply Prod.Lex.right
    have := next_lt_of_peek? _h
    simp only [next] at *
    omega
  · have hm : c.next ∈ fresh := by assumption
    apply Prod.Lex.left
    rw [List.length_erase_of_mem hm]
    have := List.length_pos_of_mem hm
    omega

structure Narrator where
  cursor : Cursor
  store : Store
  phase : Phase
  /-- Whether the script goes on as soon as a text is shown in full. -/
  autoAdvance : Bool

structure Tick where
  cues : List Cue
  phase : Phase
  change : Option SceneChange
deriving DecidableEq, Repr

namespace Narrator

def start (p : Program) (s : Store) (autoAdvance : Bool) : Narrator :=
  ⟨.start p, s, .idle, autoAdvance⟩

def reset (n : Narrator) (p : Program) : Narrator :=
  { n with cursor := .start p, phase := .idle }

def isFinished (n : Narrator) : Bool :=
  n.phase.isFinished

def afterReveal (n : Narrator) : Phase :=
  if n.autoAdvance then .running else .awaitingAdvance false

/-- The label of an option of the choice that the script is at. -/
def target (n : Narrator) (index : Nat) : Except Fault String :=
  match n.cursor.current? with
  | some (.choices options) =>
    match options[index]? with
    | some o => .ok o.target
    | none => .error (.notAtChoice (some "choices"))
  | a => .error (.notAtChoice (a.map Action.kind))

/-- Takes an option; where its label is missing the script is over. -/
def choose (n : Narrator) (count index : Nat) : Narrator × Except Fault (List Cue) :=
  if count ≤ index then (n, .error (.invalidChoice index count))
  else match n.target index with
    | .error fault => (n, .error fault)
    | .ok label =>
      match n.cursor.jump? label with
      | some c => ({ n with cursor := c, phase := .running }, .ok [.clearChoices])
      | none => ({ n with phase := .finished }, .error (.labelNotFound label))

def receive (n : Narrator) (input : Input) : Narrator × Except Fault (List Cue) :=
  match n.phase, input with
  | .awaitingAdvance true, .advance => ({ n with phase := n.afterReveal }, .ok [.completeReveal])
  | .awaitingAdvance true, .revealFinished => ({ n with phase := n.afterReveal }, .ok [])
  | .awaitingAdvance false, .advance => ({ n with phase := .running }, .ok [])
  | .awaitingChoice count, .choose index => n.choose count index
  | .awaitingChoice _, _ => (n, .ok [])
  | phase, .choose _ => (n, .error (.notChoosing phase))
  | _, _ => (n, .ok [])

def proceed (n : Narrator) (due : List Cue) : Narrator × Except Fault Tick :=
  let s := n.cursor.play (List.range n.cursor.program.size) n.store
  let n := { n with cursor := s.cursor, store := s.store }
  let cues := due ++ s.cues
  match s.stop with
  | .waits phase => ({ n with phase := phase }, .ok ⟨cues, phase, none⟩)
  | .ends => ({ n with phase := .finished }, .ok ⟨cues, .finished, none⟩)
  | .leaves change => ({ n with phase := .finished }, .ok ⟨cues, .finished, some change⟩)
  | .fails fault => ({ n with phase := .finished }, .error fault)

/-- Goes on as far as the input lets it; without an input only what does not wait goes on. -/
def tick (n : Narrator) (input : Option Input) : Narrator × Except Fault Tick :=
  if n.isFinished then
    match input with
    | some _ => (n, .error .scriptEnded)
    | none => (n, .ok ⟨[], n.phase, none⟩)
  else
    let (n, received) := match input with
      | some input => n.receive input
      | none => (n, .ok [])
    match received with
    | .error fault => (n, .error fault)
    | .ok due => if n.phase.isWaiting then (n, .ok ⟨due, n.phase, none⟩) else n.proceed due

end Narrator

end Dialogue
