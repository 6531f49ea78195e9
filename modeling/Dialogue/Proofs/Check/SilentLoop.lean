import Dialogue.Check.Analysis
import Dialogue.Proofs.Play.Flow
import Mathlib.Data.Finset.Card
import Mathlib.Data.Finset.Image
import Mathlib.Data.Finset.Range
import Mathlib.Data.Nat.Find
namespace Dialogue

open Relation

namespace Program

section Arrival

variable {step : Nat → Option Nat} {goal i n : Nat}

theorem arrives_iff : arrives step goal n i = true ↔
    ∃ m, m < n ∧ (fun o => o.bind step)^[m + 1] (some i) = some goal := by
  induction n generalizing i with
  | zero => simp [arrives]
  | succ n ih =>
    rw [arrives]
    cases hs : step i with
    | none =>
      simp only [Bool.false_eq_true, false_iff, not_exists, not_and]
      intro m _
      rw [Function.iterate_succ_apply, Option.bind_some, hs,
        Function.iterate_fixed (f := fun o => Option.bind o step) rfl]
      intro hg
      cases hg
    | some j =>
      have hj (m : Nat) : (fun o => Option.bind o step)^[m + 1] (some i) =
          (fun o => Option.bind o step)^[m] (some j) := by
        rw [Function.iterate_succ_apply, Option.bind_some, hs]
      simp only [Bool.or_eq_true, beq_iff_eq, ih, hj]
      constructor
      · rintro (rfl | ⟨m, hm, hg⟩)
        · exact ⟨0, Nat.succ_pos n, rfl⟩
        · exact ⟨m + 1, Nat.succ_lt_succ hm, hg⟩
      · rintro ⟨m, hm, hg⟩
        cases m with
        | zero => exact .inl (Option.some.inj hg)
        | succ m => exact .inr ⟨m, Nat.lt_of_succ_lt_succ hm, hg⟩

theorem exists_iterate (h : TransGen (fun i j => step i = some j) i goal) :
    ∃ m, (fun o => o.bind step)^[m + 1] (some i) = some goal := by
  induction h with
  | single h => exact ⟨0, h⟩
  | tail _ hs ih =>
    obtain ⟨m, hm⟩ := ih
    refine ⟨m + 1, ?_⟩
    rw [Function.iterate_succ_apply', hm]
    exact hs

theorem transGen_of_iterate {m : Nat}
    (h : (fun o => o.bind step)^[m + 1] (some i) = some goal) :
    TransGen (fun i j => step i = some j) i goal := by
  induction m generalizing goal with
  | zero => exact .single h
  | succ m ih =>
    rw [Function.iterate_succ_apply'] at h
    obtain ⟨j, hj, hs⟩ := Option.bind_eq_some_iff.mp h
    exact (ih hj).tail hs

theorem iterate_lt {m a : Nat} (hb : ∀ i j, step i = some j → j < n) (hi : i < n)
    (h : (fun o => o.bind step)^[m] (some i) = some a) : a < n := by
  cases m with
  | zero =>
    rw [← Option.some.inj h]
    exact hi
  | succ m =>
    rw [Function.iterate_succ_apply'] at h
    obtain ⟨j, _, hs⟩ := Option.bind_eq_some_iff.mp h
    exact hb j a hs

theorem iterate_isSome {m k a : Nat} (hk : k ≤ m)
    (h : (fun o => o.bind step)^[m] (some i) = some a) :
    ∃ b, (fun o => o.bind step)^[k] (some i) = some b := by
  cases hb : (fun o => Option.bind o step)^[k] (some i) with
  | some b => exact ⟨b, rfl⟩
  | none =>
    obtain ⟨d, rfl⟩ := Nat.exists_eq_add_of_le' hk
    rw [Function.iterate_add_apply, hb,
      Function.iterate_fixed (f := fun o => Option.bind o step) rfl] at h
    cases h

/-- A way through at most `n` places has a shortest form of at most `n` steps, in which no place
comes twice. -/
theorem arrives_of_transGen (hb : ∀ i j, step i = some j → j < n) (hi : i < n)
    (h : TransGen (fun i j => step i = some j) i goal) : arrives step goal n i = true := by
  classical
  have he := exists_iterate h
  have hg := Nat.find_spec he
  have hmin (m : Nat) := Nat.find_min (m := m) he
  generalize Nat.find he = m at hg hmin
  refine arrives_iff.mpr ⟨m, ?_, hg⟩
  by_contra hn
  rw [Nat.not_lt] at hn
  have hmaps : Set.MapsTo (fun k => (fun o => Option.bind o step)^[k] (some i))
      (Finset.range (m + 1)) ((Finset.range n).image some) := by
    intro k hk
    rw [Finset.coe_range, Set.mem_Iio] at hk
    obtain ⟨b, hb'⟩ := iterate_isSome (Nat.le_of_lt hk) hg
    rw [Finset.mem_coe, Finset.mem_image]
    exact ⟨b, Finset.mem_range.mpr (iterate_lt hb hi hb'), hb'.symm⟩
  have hcard : ((Finset.range n).image some).card < (Finset.range (m + 1)).card := by
    rw [Finset.card_range]
    exact Nat.lt_succ_of_le (Finset.card_image_le.trans (by rwa [Finset.card_range]))
  -- Of the first `m + 1` places two are the same one.
  obtain ⟨x, hx, y, hy, hne, hxy⟩ := Finset.exists_ne_map_eq_of_card_lt_of_maps_to hcard hmaps
  obtain ⟨a, b, hab, hbm, heq⟩ : ∃ a b, a < b ∧ b ≤ m ∧
      (fun o => Option.bind o step)^[a] (some i) = (fun o => Option.bind o step)^[b] (some i) := by
    rw [Finset.mem_range] at hx hy
    rcases Nat.lt_or_gt_of_ne hne with hlt | hlt
    · exact ⟨x, y, hlt, Nat.le_of_lt_succ hy, hxy⟩
    · exact ⟨y, x, hlt, Nat.le_of_lt_succ hx, hxy.symm⟩
  -- Without the steps between them the goal is reached sooner than by the shortest way.
  refine hmin (m - b + a) (by omega) ?_
  rw [show m + 1 = (m - b + 1) + b by omega, Function.iterate_add_apply, ← heq,
    ← Function.iterate_add_apply] at hg
  rw [← hg]
  congr 1
  omega

end Arrival

variable {p : Program} {i j k : Nat} {target : String}

theorem jumpFrom?_of_action {a : Action} (ha : p.action? i = some a) :
    jumpFrom? i (p.actions.drop i) =
      match a.next with
      | .proceed => jumpFrom? (i + 1) (p.actions.drop (i + 1))
      | .jump _ => some i
      | _ => none := by
  obtain ⟨hi, rfl⟩ := List.getElem?_eq_some_iff.mp ha
  rw [List.drop_eq_getElem_cons hi]
  rfl

theorem jumpFrom?_of_none (ha : p.action? i = none) :
    jumpFrom? i (p.actions.drop i) = none := by
  rw [List.drop_eq_nil_of_le (List.getElem?_eq_none_iff.mp ha), jumpFrom?]

theorem nextJump?_of_goto (ha : p.action? i = some (.goto target))
    (hk : p.label? target = some k) : p.nextJump? i = jumpFrom? k (p.actions.drop k) := by
  rw [action?] at ha
  simp only [nextJump?, ha, hk, Option.bind_some]

theorem goto_of_nextJump? (h : p.nextJump? i = some j) : ∃ target k,
    p.action? i = some (.goto target) ∧ p.label? target = some k ∧
      jumpFrom? k (p.actions.drop k) = some j := by
  rw [nextJump?] at h
  split at h
  · next target ha =>
    obtain ⟨k, hk, hj⟩ := Option.bind_eq_some_iff.mp h
    exact ⟨target, k, ha, hk, hj⟩
  · cases h

theorem jumpFrom?_sound (h : jumpFrom? k (p.actions.drop k) = some j) :
    ReflTransGen p.Leads k j ∧ ∃ target, p.action? j = some (.goto target) := by
  induction hl : p.size - k generalizing k with
  | zero =>
    have hn : p.action? k = none := List.getElem?_eq_none (Nat.le_of_sub_eq_zero hl)
    rw [jumpFrom?_of_none hn] at h
    cases h
  | succ l ih =>
    cases ha : p.action? k with
    | none =>
      rw [jumpFrom?_of_none ha] at h
      cases h
    | some a =>
      rw [jumpFrom?_of_action ha] at h
      cases hn : a.next with
      | proceed =>
        simp only [hn] at h
        obtain ⟨hr, ht⟩ := ih h (by omega)
        exact ⟨.head (leads_of_proceed ha hn) hr, ht⟩
      | jump target =>
        simp only [hn, Option.some.injEq] at h
        subst h
        rw [Action.next_eq_jump_iff.mp hn] at ha
        exact ⟨.refl, target, ha⟩
      | wait phase => simp [hn] at h
      | leave change => simp [hn] at h

theorem nextJump?_lt (h : p.nextJump? i = some j) : j < p.size := by
  obtain ⟨_, k, _, _, hj⟩ := goto_of_nextJump? h
  obtain ⟨_, target, ha⟩ := jumpFrom?_sound hj
  exact (List.getElem?_eq_some_iff.mp ha).1

theorem leads_of_nextJump? (h : p.nextJump? i = some j) : TransGen p.Leads i j := by
  obtain ⟨target, k, ha, hk, hj⟩ := goto_of_nextJump? h
  have hl : p.Leads i k := leads_of_jump ha rfl hk
  exact .head' hl (jumpFrom?_sound hj).1

/-- Playing on comes to a jump by way of the next jump, the one after it, and so on. -/
theorem exists_jumpFrom? (h : ReflTransGen p.Leads k j)
    (hj : p.action? j = some (.goto target)) : ∃ m, jumpFrom? k (p.actions.drop k) = some m ∧
      ReflTransGen (fun i j => p.nextJump? i = some j) m j := by
  induction h using ReflTransGen.head_induction_on with
  | refl =>
    refine ⟨j, ?_, .refl⟩
    rw [jumpFrom?_of_action hj]
    rfl
  | @head k l hkl _ ih =>
    obtain ⟨m, hm, hr⟩ := ih
    obtain ⟨a, ha, ⟨hn, rfl⟩ | ⟨t, hn, ht⟩⟩ := hkl.cases
    · refine ⟨m, ?_, hr⟩
      rw [jumpFrom?_of_action ha]
      simp only [hn, hm]
    · refine ⟨k, ?_, .head ?_ hr⟩
      · rw [jumpFrom?_of_action ha]
        simp only [hn]
      · rw [Action.next_eq_jump_iff.mp hn] at ha
        rw [nextJump?_of_goto ha ht, hm]

theorem onLoop_iff_arrives (ha : p.action? i = some (.goto target)) :
    p.OnLoop i ↔ arrives p.nextJump? i p.size i = true := by
  constructor
  · intro h
    obtain ⟨k, hk, hr⟩ := TransGen.head'_iff.mp h
    obtain ⟨m, hm, hh⟩ := exists_jumpFrom? hr ha
    have hi : p.nextJump? i = some m := by
      obtain ⟨a, ha', ⟨hn, _⟩ | ⟨t, hn, ht⟩⟩ := hk.cases
      · cases ha.symm.trans ha'
        cases hn
      · cases ha.symm.trans ha'
        cases hn
        rw [nextJump?_of_goto ha ht, hm]
    have hlt : i < p.size := (List.getElem?_eq_some_iff.mp ha).1
    exact arrives_of_transGen (fun _ _ => nextJump?_lt) hlt (.head' hi hh)
  · intro h
    obtain ⟨m, _, hm⟩ := arrives_iff.mp h
    exact TransGen.closed (fun _ _ => leads_of_nextJump?) _ _ (transGen_of_iterate hm)

/-- The silent loops are the jumps that playing on leads back to without a wait. -/
theorem mem_silentLoops_iff :
    (i, target) ∈ p.silentLoops ↔ p.action? i = some (.goto target) ∧ p.OnLoop i := by
  rw [silentLoops_eq, List.mem_filterMap]
  constructor
  · rintro ⟨⟨a, k⟩, hm, he⟩
    have ha : p.action? k = some a := List.mem_zipIdx_iff_getElem?.mp hm
    cases a with
    | goto t =>
      simp only at he
      split at he
      · next h =>
        cases he
        exact ⟨ha, (onLoop_iff_arrives ha).mpr h⟩
      · cases he
    | _ => cases he
  · rintro ⟨ha, hl⟩
    refine ⟨(.goto target, i), List.mem_zipIdx_iff_getElem?.mpr ha, ?_⟩
    simp only [(onLoop_iff_arrives ha).mp hl, if_true]

end Program

end Dialogue
