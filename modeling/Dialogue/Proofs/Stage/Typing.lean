import Dialogue.Proofs.Stage.Single
import Dialogue.Stage.Typewriter
namespace Dialogue

namespace Typewriter

inductive Stroke where
  | start (content : String)
  | update (dt : Float32)
  | complete

def Stroke.isStart : Stroke → Bool
  | .start _ => true
  | _ => false

def strike (t : Typewriter) : Stroke → Typewriter
  | .start content => t.start content
  | .update dt => t.update dt
  | .complete => t.complete

def follow (t : Typewriter) (strokes : List Stroke) : Typewriter :=
  strokes.foldl strike t

def charge (t : Typewriter) (dt : Float32) : Typewriter :=
  { t with timer := t.timer + dt * t.charsPerSecond }

/-- Shows one character that is due, as long as one is hidden. -/
def round? (t : Typewriter) : Option Typewriter :=
  if 1 ≤ t.timer ∧ t.visible < t.total then
    some { t with visible := t.visible + 1, timer := t.timer - 1 }
  else none

/-- So many rounds are made until none is due. -/
inductive Loops : Nat → Typewriter → Typewriter → Prop
  | stop {t : Typewriter} (h : t.round? = none) : Loops 0 t t
  | round {n : Nat} {t u v : Typewriter} (h : t.round? = some u) (hl : Loops n u v) :
      Loops (n + 1) t v

/-- The typewriter has come from another state without a new text being started. -/
structure Continues (t u : Typewriter) : Prop where
  content : u.content = t.content
  total : u.total = t.total
  visible : t.visible ≤ u.visible

structure Sound (t : Typewriter) : Prop where
  total : t.total = t.content.length
  visible : t.visible ≤ t.total

variable {t u : Typewriter} {n : Nat}

theorem isFinished_complete (t : Typewriter) : t.complete.isFinished = true :=
  decide_eq_true (Nat.le_refl t.total)

theorem update_of_finished (h : t.isFinished = true) (dt : Float32) : t.update dt = t :=
  if_pos h

theorem advance_eq (t : Typewriter) (dt : Float32) :
    t.advance dt = ((t.update dt).isFinished, t.update dt) := by
  rw [advance]
  split
  · next h => rw [update_of_finished h, h]
  · rfl

section Loop

def revealed (t : Typewriter) (hidden : Nat) : Typewriter :=
  { t with
    visible := (reveal t.visible t.timer hidden).1
    timer := (reveal t.visible t.timer hidden).2 }

/-- The number of hidden characters bounds the rounds, whatever the timer does. -/
theorem loops_revealed {hidden : Nat} (h : t.total - t.visible = hidden) :
    ∃ n ≤ hidden, Loops n t (t.revealed hidden) := by
  induction hidden generalizing t with
  | zero =>
    refine ⟨0, Nat.le_refl 0, .stop (if_neg ?_)⟩
    intro ⟨_, hlt⟩
    exact Nat.not_le_of_lt hlt (Nat.le_of_sub_eq_zero h)
  | succ hidden ih =>
    by_cases hd : 1 ≤ t.timer
    · have hlt : t.visible < t.total := by omega
      have hr : t.round? = some { t with visible := t.visible + 1, timer := t.timer - 1 } :=
        if_pos ⟨hd, hlt⟩
      obtain ⟨n, hn, hl⟩ := ih (t := { t with visible := t.visible + 1, timer := t.timer - 1 })
        (show t.total - (t.visible + 1) = hidden by omega)
      refine ⟨n + 1, Nat.succ_le_succ hn, .round hr ?_⟩
      rw [revealed, reveal, if_pos hd]
      exact hl
    · refine ⟨0, Nat.zero_le _, ?_⟩
      rw [revealed, reveal, if_neg hd]
      exact .stop (if_neg fun hg => hd hg.1)

theorem update_of_not_finished (h : t.isFinished = false) (dt : Float32) :
    t.update dt = (t.charge dt).revealed (t.total - t.visible) :=
  if_neg (Bool.not_eq_true _ ▸ h)

theorem loops_update (h : t.isFinished = false) (dt : Float32) :
    ∃ n ≤ t.total - t.visible, Loops n (t.charge dt) (t.update dt) := by
  rw [update_of_not_finished h]
  exact loops_revealed (t := t.charge dt) rfl

theorem eq_of_round? (h : t.round? = some u) :
    u = { t with visible := t.visible + 1, timer := t.timer - 1 } ∧ t.visible < t.total := by
  rw [round?] at h
  split at h
  · next hg =>
    cases h
    exact ⟨rfl, hg.2⟩
  · cases h

theorem Loops.continues (h : Loops n t u) : t.Continues u := by
  induction h with
  | stop => exact ⟨rfl, rfl, Nat.le_refl _⟩
  | round h _ ih =>
    obtain ⟨rfl, _⟩ := eq_of_round? h
    exact ⟨ih.content, ih.total, Nat.le_of_succ_le ih.visible⟩

theorem Loops.visible_le (h : Loops n t u) (ht : t.visible ≤ t.total) : u.visible ≤ u.total := by
  induction h with
  | stop => exact ht
  | round h _ ih =>
    obtain ⟨rfl, hlt⟩ := eq_of_round? h
    exact ih hlt

theorem Loops.charsPerSecond_eq (h : Loops n t u) : u.charsPerSecond = t.charsPerSecond := by
  induction h with
  | stop => rfl
  | round h _ ih =>
    obtain ⟨rfl, _⟩ := eq_of_round? h
    exact ih

end Loop

namespace Continues

theorem refl (t : Typewriter) : t.Continues t :=
  ⟨rfl, rfl, Nat.le_refl _⟩

theorem trans {v : Typewriter} (h : t.Continues u) (h' : u.Continues v) : t.Continues v :=
  ⟨h'.content.trans h.content, h'.total.trans h.total, Nat.le_trans h.visible h'.visible⟩

theorem update (t : Typewriter) (dt : Float32) : t.Continues (t.update dt) := by
  cases h : t.isFinished with
  | true =>
    rw [update_of_finished h]
    exact refl t
  | false =>
    obtain ⟨n, _, hl⟩ := loops_update h dt
    exact ⟨hl.continues.content, hl.continues.total, hl.continues.visible⟩

theorem isFinished (h : t.Continues u) (hf : t.isFinished = true) : u.isFinished = true := by
  apply decide_eq_true
  rw [h.total]
  exact Nat.le_trans (of_decide_eq_true hf) h.visible

theorem visibleText (h : t.Continues u) : t.visibleText.toList <+: u.visibleText.toList := by
  rw [Typewriter.visibleText, Typewriter.visibleText, h.content, String.toList_ofList,
    String.toList_ofList]
  exact List.take_prefix_take_left h.visible

end Continues

namespace Sound

theorem idle (charsPerSecond : Float32) : (idle charsPerSecond).Sound :=
  ⟨rfl, Nat.le_refl 0⟩

theorem complete (h : t.Sound) : t.complete.Sound :=
  ⟨h.total, Nat.le_refl _⟩

theorem start (t : Typewriter) (content : String) : (t.start content).Sound := by
  rw [Typewriter.start]
  dsimp only
  split
  · exact ⟨rfl, Nat.le_refl _⟩
  · exact ⟨rfl, Nat.zero_le _⟩

theorem update (h : t.Sound) (dt : Float32) : (t.update dt).Sound := by
  have hc := Continues.update t dt
  refine ⟨by rw [hc.total, hc.content, h.total], ?_⟩
  cases hf : t.isFinished with
  | true =>
    rw [update_of_finished hf]
    exact h.visible
  | false =>
    obtain ⟨n, _, hl⟩ := loops_update hf dt
    exact hl.visible_le h.visible

theorem strike (h : t.Sound) (s : Stroke) : (t.strike s).Sound := by
  cases s with
  | start content => exact .start t content
  | update dt => exact h.update dt
  | complete => exact h.complete

theorem follow (h : t.Sound) (strokes : List Stroke) : (t.follow strokes).Sound := by
  induction strokes generalizing t with
  | nil => exact h
  | cons s strokes ih => exact ih (h.strike s)

theorem continues_strike (h : t.Sound) {s : Stroke} (hs : s.isStart = false) :
    t.Continues (t.strike s) := by
  cases s with
  | start content => cases hs
  | update dt => exact .update t dt
  | complete => exact ⟨rfl, rfl, h.visible⟩

theorem continues_follow (h : t.Sound) {strokes : List Stroke}
    (hs : ∀ s ∈ strokes, s.isStart = false) : t.Continues (t.follow strokes) := by
  induction strokes generalizing t with
  | nil => exact .refl t
  | cons s strokes ih =>
    rw [List.forall_mem_cons] at hs
    exact (h.continues_strike hs.1).trans (ih (h.strike s) hs.2)

theorem length_visibleText (h : t.Sound) : t.visibleText.length = t.visible := by
  rw [visibleText, String.length_ofList, List.length_take, String.length_toList, ← h.total]
  exact Nat.min_eq_left h.visible

/-- The text is shown in full just if what is shown is all of it. -/
theorem isFinished_iff (h : t.Sound) : t.isFinished = true ↔ t.visibleText = t.content := by
  rw [isFinished, decide_eq_true_iff]
  constructor
  · intro hle
    have hl : t.content.toList.length ≤ t.visible := by
      rw [String.length_toList, ← h.total]
      exact hle
    rw [visibleText, List.take_of_length_le hl, String.ofList_toList]
  · intro he
    rw [h.total, ← he, h.length_visibleText]

end Sound

theorem charsPerSecond_strike (t : Typewriter) (s : Stroke) :
    (t.strike s).charsPerSecond = t.charsPerSecond := by
  cases s with
  | start content =>
    rw [strike, start]
    dsimp only
    split <;> rfl
  | update dt =>
    rw [strike]
    cases h : t.isFinished with
    | true => rw [update_of_finished h]
    | false =>
      obtain ⟨n, _, hl⟩ := loops_update h dt
      exact hl.charsPerSecond_eq
  | complete => rfl

theorem charsPerSecond_follow (t : Typewriter) (strokes : List Stroke) :
    (t.follow strokes).charsPerSecond = t.charsPerSecond := by
  induction strokes generalizing t with
  | nil => rfl
  | cons s strokes ih => exact (ih (t.strike s)).trans (t.charsPerSecond_strike s)

/-- Without a speed of at most zero a text begins hidden, even if the speed is no number. -/
theorem visibleText_start_of_not_le (h : ¬ t.charsPerSecond ≤ 0) (content : String) :
    (t.start content).visibleText = "" := by
  rw [start]
  dsimp only
  rw [if_neg h]
  rfl

theorem visibleText_start_of_le (h : t.charsPerSecond ≤ 0) (content : String) :
    (t.start content).visibleText = content := by
  have hf : (t.start content).isFinished = true ∧ (t.start content).content = content := by
    rw [start]
    dsimp only
    rw [if_pos h]
    exact ⟨isFinished_complete _, rfl⟩
  rw [(Sound.start t content).isFinished_iff.mp hf.1, hf.2]

/-- A typewriter shows the front of its text, as much as it counts, and all of it just if it is
finished. -/
theorem shows_front (charsPerSecond : Float32) (strokes : List Stroke) :
    let t := (idle charsPerSecond).follow strokes
    (t.visible ≤ t.content.length ∧ t.visibleText.length = t.visible ∧
        t.visibleText.toList <+: t.content.toList) ∧
      (t.isFinished = true ↔ t.visibleText = t.content) ∧
      (∀ dt, (t.isFinished = true → t.update dt = t) ∧
        (t.isFinished = false →
          ∃ n ≤ t.content.length - t.visible, Loops n (t.charge dt) (t.update dt)) ∧
        t.advance dt = ((t.update dt).isFinished, t.update dt)) ∧
      (∀ more, (∀ s ∈ more, Stroke.isStart s = false) →
        (t.follow more).content = t.content ∧
          t.visibleText.toList <+: (t.follow more).visibleText.toList ∧
          (t.isFinished = true → (t.follow more).isFinished = true)) ∧
      ∀ content, (t.start content).content = content ∧
        (0 < charsPerSecond → (t.start content).visibleText = "") ∧
        (charsPerSecond ≤ 0 → (t.start content).visibleText = content) := by
  intro t
  have h : t.Sound := (Sound.idle charsPerSecond).follow strokes
  have hs : t.charsPerSecond = charsPerSecond := charsPerSecond_follow _ strokes
  refine ⟨⟨?_, h.length_visibleText, ?_⟩, h.isFinished_iff, ?_, ?_, ?_⟩
  · rw [← h.total]
    exact h.visible
  · rw [visibleText, String.toList_ofList]
    exact List.take_prefix _ _
  · intro dt
    rw [← h.total]
    exact ⟨fun hf => update_of_finished hf dt, fun hf => loops_update hf dt, t.advance_eq dt⟩
  · intro more hm
    have hc := h.continues_follow hm
    exact ⟨hc.content, hc.visibleText, hc.isFinished⟩
  · intro content
    refine ⟨?_, ?_, ?_⟩
    · rw [start]
      dsimp only
      split <;> rfl
    · intro hp
      apply visibleText_start_of_not_le
      rw [hs]
      exact Single.not_le_zero_of_pos hp
    · intro hle
      apply visibleText_start_of_le
      rw [hs]
      exact hle

end Typewriter

end Dialogue
