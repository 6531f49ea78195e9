import Dialogue.Proofs.Check.SilentLoop
namespace Dialogue

open Relation

namespace Program

variable {p : Program} {home i j k : Nat} {target : String}

theorem OnLoop.back (h : p.OnLoop home) (hr : ReflTransGen p.Leads home i) :
    TransGen p.Leads i home := by
  induction hr with
  | refl => exact h
  | tail _ hs ih =>
    obtain ⟨k, hk, hr⟩ := TransGen.head'_iff.mp ih
    obtain rfl := hs.unique hk
    exact .trans_right hr h

theorem OnLoop.exists_leads (h : p.OnLoop home) (hr : ReflTransGen p.Leads home i) :
    ∃ j, p.Leads i j := by
  obtain ⟨j, hj, _⟩ := TransGen.head'_iff.mp (h.back hr)
  exact ⟨j, hj⟩

theorem not_onLoop (hr : ReflTransGen p.Leads home i) (hf : p.follow? i = none) :
    ¬ p.OnLoop home := by
  intro hl
  obtain ⟨j, hj⟩ := hl.exists_leads hr
  cases hf.symm.trans hj

theorem follow?_of_action {a : Action} (ha : p.action? i = some a) :
    p.follow? i =
      match a.next with
      | .proceed => some (i + 1)
      | .jump target => p.label? target
      | _ => none := by
  simp only [follow?, ha, Option.map_some]
  cases a.next <;> rfl

theorem follow?_of_undefined (ha : p.action? i = some (.goto target))
    (hn : p.label? target = none) : p.follow? i = none :=
  (follow?_of_action ha).trans hn

def LeadsPast (p : Program) (home i j : Nat) : Prop :=
  p.Leads i j ∧ i ≠ home

theorem LeadsPast.turn (h : TransGen (p.LeadsPast home) i i) (hj : p.Leads i j) :
    TransGen (p.LeadsPast home) j j := by
  obtain ⟨k, hk, hr⟩ := TransGen.head'_iff.mp h
  obtain rfl := hj.unique hk.1
  exact .tail' hr hk

theorem OnLoop.not_past (h : p.OnLoop home) (hr : ReflTransGen p.Leads home i) :
    ¬ TransGen (p.LeadsPast home) i i := by
  intro hp
  have hc : TransGen (p.LeadsPast home) home home := by
    refine TransGen.head_induction_on (motive := fun j _ => TransGen (p.LeadsPast home) j j →
      TransGen (p.LeadsPast home) home home) (h.back hr) ?_ ?_ hp
    · intro j hj ht
      exact LeadsPast.turn ht hj
    · intro j k hj _ ih ht
      exact ih (LeadsPast.turn ht hj)
  obtain ⟨k, hk, _⟩ := TransGen.head'_iff.mp hc
  exact hk.2 rfl

/-- A walk along the script: the jumps it has come to, and the place where it goes on. -/
structure Walk where
  met : List Nat
  place : Option Nat

namespace Walk

def start (p : Program) (home : Nat) (target : String) : Walk :=
  ⟨[home], p.label? target⟩

/-- Goes on by one action; the walk is over back home, at a wait, and at another jump for a second
time. -/
def step (p : Program) (home : Nat) (w : Walk) : Bool ⊕ Walk :=
  match w.place with
  | none => .inl false
  | some i =>
    match (p.action? i).map Action.next with
    | some .proceed => .inr ⟨w.met, some (i + 1)⟩
    | some (.jump target) =>
      if i = home then .inl true
      else if i ∈ w.met then .inl false
      else .inr ⟨i :: w.met, p.label? target⟩
    | _ => .inl false

/-- Whether the walk comes back home; there is no answer if it is not over in so many steps. -/
def run (p : Program) (home : Nat) : Nat → Walk → Option Bool
  | 0, _ => none
  | k + 1, w =>
    match w.step p home with
    | .inl back => some back
    | .inr w => run p home k w

/-- The number of steps in which a walk has come to all jumps and is at the end of the script. -/
def bound (p : Program) (w : Walk) : Nat :=
  (p.size - w.met.length) * (p.size + 1) + (p.size - w.place.getD p.size)

/-- The jumps that a walk has come to lie behind it, on a way that does not set out from home. -/
structure Sound (p : Program) (home : Nat) (w : Walk) : Prop where
  nodup : w.met.Nodup
  lt : ∀ i ∈ w.met, i < p.size
  home_mem : home ∈ w.met
  reached : ∀ i, w.place = some i → TransGen p.Leads home i
  behind : ∀ i, w.place = some i → ∀ j ∈ w.met, j ≠ home → TransGen (p.LeadsPast home) j i
  astray : w.place = none → ¬ p.OnLoop home

variable {w w' : Walk}

theorem run_stop {back : Bool} (h : w.step p home = .inl back) :
    w.run p home (k + 1) = some back := by
  rw [run, h]

theorem run_step (h : w.step p home = .inr w') : w.run p home (k + 1) = w'.run p home k := by
  rw [run, h]

theorem step_of_action {a : Action} (hw : w.place = some i) (ha : p.action? i = some a) :
    w.step p home =
      match a.next with
      | .proceed => .inr ⟨w.met, some (i + 1)⟩
      | .jump target =>
        if i = home then .inl true
        else if i ∈ w.met then .inl false
        else .inr ⟨i :: w.met, p.label? target⟩
      | _ => .inl false := by
  simp only [step, hw, ha, Option.map_some]
  cases a.next <;> rfl

theorem bound_start_lt (p : Program) (home : Nat) (target : String) (d : Nat) :
    (start p home target).bound p < (p.size + 1) * (p.size + 1) + d := by
  have h := Nat.mul_le_mul_right (p.size + 1) (Nat.sub_le p.size (start p home target).met.length)
  rw [bound, Nat.succ_mul]
  omega

theorem sound_start (ha : p.action? home = some (.goto target)) :
    Sound p home (start p home target) where
  nodup := List.nodup_singleton home
  lt i hi := by
    rw [List.mem_singleton.mp hi]
    exact (List.getElem?_eq_some_iff.mp ha).1
  home_mem := List.mem_singleton_self home
  reached _ hi := .single (leads_of_jump ha rfl hi)
  behind _ _ _ hj hne := absurd (List.mem_singleton.mp hj) hne
  astray hn := not_onLoop .refl (follow?_of_undefined ha hn)

theorem Sound.proceed (h : Sound p home w) (hw : w.place = some i) {a : Action}
    (ha : p.action? i = some a) (hn : a.next = .proceed) (hi : i ≠ home) :
    Sound p home ⟨w.met, some (i + 1)⟩ ∧ bound p ⟨w.met, some (i + 1)⟩ < w.bound p := by
  have hs : p.Leads i (i + 1) := leads_of_proceed ha hn
  constructor
  · refine ⟨h.nodup, h.lt, h.home_mem, ?_, ?_, nofun⟩
    · rintro _ ⟨⟩
      exact (h.reached i hw).tail hs
    · rintro _ ⟨⟩ j hj hne
      exact (h.behind i hw j hj hne).tail ⟨hs, hi⟩
  · have hlt : i < p.size := (List.getElem?_eq_some_iff.mp ha).1
    simp only [bound, hw, Option.getD_some]
    omega

theorem Sound.jump (h : Sound p home w) (hw : w.place = some i)
    (ha : p.action? i = some (.goto target)) (hm : i ∉ w.met) :
    Sound p home ⟨i :: w.met, p.label? target⟩ ∧
      bound p ⟨i :: w.met, p.label? target⟩ < w.bound p := by
  have hi : i ≠ home := by
    rintro rfl
    exact hm h.home_mem
  have hnodup : (i :: w.met).Nodup := List.nodup_cons.mpr ⟨hm, h.nodup⟩
  have hlt : ∀ j ∈ i :: w.met, j < p.size := by
    intro j hj
    rcases List.mem_cons.mp hj with rfl | hj
    · exact (List.getElem?_eq_some_iff.mp ha).1
    · exact h.lt j hj
  constructor
  · refine ⟨hnodup, hlt, List.mem_cons_of_mem i h.home_mem, ?_, ?_, ?_⟩
    · intro k hk
      exact (h.reached i hw).tail (leads_of_jump ha rfl hk)
    · intro k hk j hj hne
      have hs : p.LeadsPast home i k := ⟨leads_of_jump ha rfl hk, hi⟩
      rcases List.mem_cons.mp hj with rfl | hj
      · exact .single hs
      · exact (h.behind i hw j hj hne).tail hs
    · intro hn
      exact not_onLoop (h.reached i hw).to_reflTransGen (follow?_of_undefined ha hn)
  · -- There are no more different jumps than places.
    have hsub : i :: w.met ⊆ List.range p.size := fun j hj => List.mem_range.mpr (hlt j hj)
    have hle : w.met.length + 1 ≤ p.size := by
      have hl := (hnodup.subperm hsub).length_le
      rwa [List.length_cons, List.length_range] at hl
    have hmul : (p.size - w.met.length) * (p.size + 1) =
        (p.size - (w.met.length + 1)) * (p.size + 1) + (p.size + 1) := by
      rw [← Nat.succ_mul]
      congr 1
      omega
    simp only [bound, List.length_cons, hmul]
    omega

/-- A sound walk goes on soundly and nearer to its bound, or it is over and right about its jump. -/
theorem Sound.step (h : Sound p home w) (ha : p.action? home = some (.goto target)) :
    (∃ back, w.step p home = .inl back ∧ (back = true ↔ p.OnLoop home)) ∨
      ∃ w', w.step p home = .inr w' ∧ Sound p home w' ∧ w'.bound p < w.bound p := by
  have finished (hs : w.step p home = .inl false) (hl : ¬ p.OnLoop home) :
      ∃ back, w.step p home = .inl back ∧ (back = true ↔ p.OnLoop home) :=
    ⟨false, hs, iff_of_false Bool.false_ne_true hl⟩
  cases hw : w.place with
  | none => exact .inl (finished (by simp only [Walk.step, hw]) (h.astray hw))
  | some i =>
    have hr := (h.reached i hw).to_reflTransGen
    cases hi : p.action? i with
    | none =>
      refine .inl (finished (by simp only [Walk.step, hw, hi, Option.map_none]) (not_onLoop hr ?_))
      simp only [follow?, hi, Option.map_none]
    | some a =>
      have hs : w.step p home = _ := step_of_action hw hi
      have hf : p.follow? i = _ := follow?_of_action hi
      cases hn : a.next with
      | wait phase =>
        simp only [hn] at hs hf
        exact .inl (finished hs (not_onLoop hr hf))
      | leave change =>
        simp only [hn] at hs hf
        exact .inl (finished hs (not_onLoop hr hf))
      | proceed =>
        simp only [hn] at hs
        have hne : i ≠ home := by
          rintro rfl
          cases ha.symm.trans hi
          cases hn
        exact .inr ⟨_, hs, h.proceed hw hi hn hne⟩
      | jump label =>
        simp only [hn] at hs
        rw [Action.next_eq_jump_iff.mp hn] at hi
        by_cases hh : i = home
        · rw [if_pos hh] at hs
          rw [hh] at hw
          exact .inl ⟨true, hs, iff_of_true rfl (h.reached home hw)⟩
        · rw [if_neg hh] at hs
          by_cases hm : i ∈ w.met
          · rw [if_pos hm] at hs
            refine .inl (finished hs ?_)
            intro hl
            exact hl.not_past hr (h.behind i hw i hm hh)
          · rw [if_neg hm] at hs
            exact .inr ⟨_, hs, h.jump hw hi hm⟩

theorem Sound.run (h : Sound p home w) (ha : p.action? home = some (.goto target))
    (hk : w.bound p < k) :
    ∃ back, w.run p home k = some back ∧ (back = true ↔ p.OnLoop home) := by
  induction k generalizing w with
  | zero => exact absurd hk (Nat.not_lt_zero _)
  | succ k ih =>
    rcases h.step ha with ⟨back, hs, hb⟩ | ⟨w', hs, hw', hlt⟩
    · exact ⟨back, run_stop hs, hb⟩
    · rw [run_step hs]
      exact ih hw' (by omega)

end Walk

theorem run_walk (ha : p.action? i = some (.goto target)) (d : Nat) :
    (Walk.start p i target).run p i ((p.size + 1) * (p.size + 1) + d) =
      some (decide ((i, target) ∈ p.silentLoops)) := by
  obtain ⟨back, hb, hl⟩ := (Walk.sound_start ha).run ha (Walk.bound_start_lt p i target d)
  rw [hb, Option.some.injEq, Bool.eq_iff_iff, hl, decide_eq_true_iff, mem_silentLoops_iff]
  exact (and_iff_right ha).symm

theorem pairwise_listed (p : Program) {find : Action × Nat → Option (Nat × String)}
    (hf : ∀ a i e, find (a, i) = some e → e.1 = i) :
    (p.indexed.filterMap find).Pairwise (fun e f => e.1 < f.1) := by
  have hz : p.indexed.Pairwise (fun e f => e.2 < f.2) := by
    rw [← List.pairwise_map, indexed, List.zipIdx_map_snd]
    exact List.pairwise_lt_range'
  refine hz.filterMap _ ?_
  rintro ⟨a, i⟩ ⟨b, j⟩ hij e he f hf'
  rw [hf a i e he, hf b j f hf']
  exact hij

theorem pairwise_silentLoops (p : Program) : p.silentLoops.Pairwise (fun e f => e.1 < f.1) := by
  rw [silentLoops_eq]
  apply p.pairwise_listed
  intro a i e he
  cases a with
  | goto target =>
    simp only [Option.ite_none_right_eq_some, Option.some.injEq] at he
    exact he.2 ▸ rfl
  | _ => cases he

end Program

end Dialogue
