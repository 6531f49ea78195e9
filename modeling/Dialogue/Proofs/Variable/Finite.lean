import Dialogue.Proofs.Decimal.Sum
import Dialogue.Proofs.Variable.Addition
import Dialogue.Proofs.Variable.Edits
import Mathlib.Data.List.Induction
namespace Dialogue

open Decimal (Double.limit Double.units)

namespace Store

/-- The store that changes one after the other lead to. -/
def edited (edits : List Edit) : Store :=
  edits.foldl edit Table.empty

/-- A number is to be added to a finite one and the exact sum is too large. -/
def Overflows (s : Store) (name raw : String) : Prop :=
  ∃ x y, s.get? name = some (.float x) ∧ x.isFinite = true ∧
    Decimal.finite? (Text.trim raw.toList) = some y ∧
    Double.limit ≤ (Double.units x + Double.units y).natAbs

/-- A sum was too large, and the variable has not been set since. -/
def Overflowed (edits : List Edit) (name : String) : Prop :=
  ∃ before raw after, edits = before ++ .add name raw :: after ∧
    (edited before).Overflows name raw ∧ ∀ text, .set name text ∉ after

/-- The variable holds a number that is not finite. -/
def Infinite (s : Store) (name : String) : Prop :=
  ∃ x, s.get? name = some (.float x) ∧ x.isFinite = false

section Infinite

variable {s : Store} {name other raw : String} {v : Value} {x y : Float}

theorem isFinite_infer (h : Value.infer raw = .float x) : x.isFinite = true := by
  rw [Value.infer] at h
  split at h
  · cases h
  · split at h
    · next hx =>
      cases h
      exact Decimal.finite?_isFinite hx
    · cases h

theorem Infinite.congr {t : Store} (h : s.get? name = t.get? name) :
    s.Infinite name ↔ t.Infinite name := by
  rw [Infinite, Infinite, h]

theorem infinite_iff (hx : s.get? name = some (.float x)) :
    s.Infinite name ↔ x.isFinite = false := by
  constructor
  · rintro ⟨x', hx', h⟩
    cases hx.symm.trans hx'
    exact h
  · intro h
    exact ⟨x, hx, h⟩

theorem overflows_iff (hx : s.get? name = some (.float x))
    (hy : Decimal.finite? (Text.trim raw.toList) = some y) : s.Overflows name raw ↔
      x.isFinite = true ∧ Double.limit ≤ (Double.units x + Double.units y).natAbs := by
  constructor
  · rintro ⟨x', y', hx', hfin, hy', hl⟩
    cases hx.symm.trans hx'
    cases hy.symm.trans hy'
    exact ⟨hfin, hl⟩
  · rintro ⟨hfin, hl⟩
    exact ⟨x, y, hx, hfin, hy, hl⟩

theorem Infinite.typeName (h : s.Infinite name) (hv : s.get? name = some v) :
    v.typeName = "Float" := by
  obtain ⟨x, hx, -⟩ := h
  cases hv.symm.trans hx
  rfl

theorem Overflows.typeName (h : s.Overflows name raw) (hv : s.get? name = some v) :
    v.typeName = "Float" := by
  obtain ⟨x, y, hx, -⟩ := h
  cases hv.symm.trans hx
  rfl

theorem not_infinite_set : ¬(s.set name raw).Infinite name := by
  rintro ⟨x, hx, hinf⟩
  rw [get?_set, if_pos rfl] at hx
  rw [isFinite_infer (Option.some.inj hx)] at hinf
  cases hinf

theorem isFinite_add_eq_false (hy : y.isFinite = true) :
    (x + y).isFinite = false ↔
      (x.isFinite = true ∧ Double.limit ≤ (Double.units x + Double.units y).natAbs) ∨
        x.isFinite = false := by
  rw [← Bool.not_eq_true, Decimal.Double.isFinite_add_iff hy, not_and, Nat.not_lt]
  cases x.isFinite <;> simp

theorem infinite_accumulate_float (hx : s.get? name = some (.float x)) :
    (s.accumulate name raw).Infinite name ↔ s.Overflows name raw ∨ s.Infinite name := by
  cases hy : Decimal.finite? (Text.trim raw.toList) with
  | none =>
    rw [accumulate_of_error (add_of_mismatch hx (by simp only [Value.add, hy]))]
    apply (or_iff_right _).symm
    rintro ⟨_, y, -, -, hy', -⟩
    cases hy.symm.trans hy'
  | some y =>
    have hadd : s.add name raw = .ok (s.insert name (.float (x + y))) :=
      add_of_sum hx (by simp only [Value.add, hy])
    rw [accumulate_of_ok hadd, infinite_iff (Table.get?_insert_self s name _), infinite_iff hx,
      overflows_iff hx hy]
    exact isFinite_add_eq_false (Decimal.finite?_isFinite hy)

theorem infinite_accumulate_of_typeName (hv : s.get? name = some v) (ht : v.typeName ≠ "Float") :
    (s.accumulate name raw).Infinite name ↔ s.Overflows name raw ∨ s.Infinite name := by
  obtain ⟨w, hw, he⟩ : ∃ w, (s.accumulate name raw).get? name = some w ∧
      w.typeName = v.typeName := typeName_accumulate hv
  apply iff_of_false
  · intro h
    exact ht (he.symm.trans (h.typeName hw))
  · rintro (h | h)
    · exact ht (h.typeName hv)
    · exact ht (h.typeName hv)

/-- Only a sum that is too large makes a variable infinite, and no addition makes it finite. -/
theorem infinite_accumulate :
    (s.accumulate name raw).Infinite name ↔ s.Overflows name raw ∨ s.Infinite name := by
  cases hv : s.get? name with
  | none =>
    rw [accumulate_of_ok (add_of_get?_none hv)]
    apply iff_of_false not_infinite_set
    rintro (⟨x, y, hx, -⟩ | ⟨x, hx, -⟩) <;> cases hv.symm.trans hx
  | some v =>
    cases v with
    | int m => exact infinite_accumulate_of_typeName hv (show "Int" ≠ "Float" by decide)
    | float x => exact infinite_accumulate_float hv
    | string text =>
      exact infinite_accumulate_of_typeName hv (show "String" ≠ "Float" by decide)

theorem get?_edit_of_ne {e : Edit} (h : e.name ≠ name) : (s.edit e).get? name = s.get? name := by
  cases e with
  | set other raw =>
    rw [edit, get?_set]
    exact if_neg (Ne.symm h)
  | add other raw => exact get?_accumulate_of_ne (Ne.symm h)

theorem infinite_edit_of_ne {e : Edit} (h : e.name ≠ name) : (s.edit e).Infinite name ↔
    (∃ raw, e = .add name raw ∧ s.Overflows name raw) ∨
      s.Infinite name ∧ ∀ text, e ≠ .set name text := by
  rw [Infinite.congr (get?_edit_of_ne h)]
  constructor
  · intro hi
    refine .inr ⟨hi, ?_⟩
    rintro text rfl
    exact h rfl
  · rintro (⟨raw, rfl, -⟩ | ⟨hi, -⟩)
    · exact absurd rfl h
    · exact hi

theorem infinite_edit (e : Edit) : (s.edit e).Infinite name ↔
    (∃ raw, e = .add name raw ∧ s.Overflows name raw) ∨
      s.Infinite name ∧ ∀ text, e ≠ .set name text := by
  by_cases hn : e.name = name
  · subst hn
    cases e with
    | set name raw =>
      apply iff_of_false not_infinite_set
      rintro (⟨_, he, -⟩ | ⟨-, he⟩)
      · cases he
      · exact he raw rfl
    | add name raw =>
      rw [edit, Edit.name, infinite_accumulate]
      constructor
      · rintro (h | h)
        · exact .inl ⟨raw, rfl, h⟩
        · exact .inr ⟨h, nofun⟩
      · rintro (⟨_, ⟨⟩, h⟩ | ⟨h, -⟩)
        · exact .inl h
        · exact .inr h
  · exact infinite_edit_of_ne hn

end Infinite

section Overflowed

variable {name : String} {edits : List Edit} {e : Edit}

theorem edited_concat (edits : List Edit) (e : Edit) :
    edited (edits ++ [e]) = (edited edits).edit e :=
  List.foldl_concat ..

theorem not_overflowed_nil : ¬Overflowed [] name := by
  rintro ⟨before, raw, after, he, -⟩
  cases before <;> cases he

theorem overflowed_concat : Overflowed (edits ++ [e]) name ↔
    (∃ raw, e = .add name raw ∧ (edited edits).Overflows name raw) ∨
      Overflowed edits name ∧ ∀ text, e ≠ .set name text := by
  constructor
  · rintro ⟨before, raw, after, he, ho, hset⟩
    rcases List.eq_nil_or_concat after with rfl | ⟨after, last, rfl⟩
    · obtain ⟨rfl, hl⟩ := List.append_inj' he rfl
      cases hl
      exact .inl ⟨raw, rfl, ho⟩
    · rw [List.concat_eq_append] at he hset
      rw [← List.cons_append, ← List.append_assoc] at he
      obtain ⟨rfl, hl⟩ := List.append_inj' he rfl
      cases hl
      refine .inr ⟨⟨before, raw, after, rfl, ho, ?_⟩, ?_⟩
      · intro text h
        exact hset text (List.mem_append_left _ h)
      · rintro text rfl
        exact hset text (List.mem_append_right after List.mem_cons_self)
  · rintro (⟨raw, rfl, ho⟩ | ⟨⟨before, raw, after, rfl, ho, hset⟩, he⟩)
    · exact ⟨edits, raw, [], rfl, ho, fun _ => List.not_mem_nil⟩
    · refine ⟨before, raw, after ++ [e], List.append_assoc .., ho, ?_⟩
      intro text h
      rcases List.mem_append.mp h with h | h
      · exact hset text h
      · exact he text (List.mem_singleton.mp h).symm

theorem infinite_edited_iff : (edited edits).Infinite name ↔ Overflowed edits name := by
  -- The last change is taken off: one more change does the same to both sides.
  induction edits using List.reverseRecOn with
  | nil =>
    apply iff_of_false _ not_overflowed_nil
    rintro ⟨x, hx, -⟩
    cases hx
  | append_singleton edits e ih => rw [edited_concat, infinite_edit, overflowed_concat, ih]

end Overflowed

/-- No variable holds what is not a number. -/
def Numeric (s : Store) : Prop :=
  ∀ name x, s.get? name = some (.float x) → x.isNaN = false

section Numeric

variable {s : Store} {name raw : String}

theorem Numeric.set (h : s.Numeric) : (s.set name raw).Numeric := by
  intro other x hx
  rw [get?_set] at hx
  split at hx
  · exact Decimal.Double.isNaN_of_isFinite (isFinite_infer (Option.some.inj hx))
  · exact h other x hx

theorem exists_of_add_float {v : Value} {z : Float} (h : v.add raw = .ok (.float z)) :
    ∃ x y, v = .float x ∧ y.isFinite = true ∧ z = x + y := by
  cases v with
  | int m => exact absurd (Value.typeName_of_add h) (show "Float" ≠ "Int" by decide)
  | float x =>
    rw [Value.add] at h
    split at h
    · next y hy =>
      cases h
      exact ⟨x, y, rfl, Decimal.finite?_isFinite hy, rfl⟩
    · cases h
  | string text => cases h

theorem Numeric.accumulate (h : s.Numeric) : (s.accumulate name raw).Numeric := by
  cases ha : s.add name raw with
  | error fault =>
    rw [accumulate_of_error ha]
    exact h
  | ok t =>
    rw [accumulate_of_ok ha]
    intro other z hz
    by_cases hn : other = name
    · subst hn
      cases hv : s.get? other with
      | none =>
        cases ha.symm.trans (add_of_get?_none hv)
        exact h.set other z hz
      | some v =>
        obtain ⟨w, hw, ht⟩ := get?_of_add_self ha hv
        cases hz.symm.trans ht
        obtain ⟨x, y, rfl, hy, rfl⟩ := exists_of_add_float hw
        exact Decimal.Double.isNaN_add (h other x hv) hy
    · rw [get?_of_add ha hn] at hz
      exact h other z hz

theorem numeric_edited (edits : List Edit) : (edited edits).Numeric := by
  induction edits using List.reverseRecOn with
  | nil => exact nofun
  | append_singleton edits e ih =>
    rw [edited_concat]
    cases e with
    | set name raw => exact ih.set
    | add name raw => exact ih.accumulate

end Numeric

/-- No number in a store is infinite but by a sum that was too large, and none is not a number. -/
theorem numbers_edited (edits : List Edit) :
    (∀ name, (edited edits).Infinite name ↔ Overflowed edits name) ∧ (edited edits).Numeric := by
  constructor
  · intro name
    exact infinite_edited_iff
  · exact numeric_edited edits

/-- A number of 309 digits that is added to itself. -/
theorem infinite_sum : (edited [.set "f" "1e308", .add "f" "1e308"]).Infinite "f" := by
  have h : ((edited [.set "f" "1e308", .add "f" "1e308"]).get? "f").any
      (fun v => match v with
        | .float x => !x.isFinite
        | _ => false) = true := by decide +kernel
  obtain ⟨v, hv, hf⟩ := (Option.any_eq_true ..).mp h
  cases v with
  | float x => exact ⟨x, hv, (Bool.not_eq_true' _).mp hf⟩
  | _ => cases hf

end Store

end Dialogue
