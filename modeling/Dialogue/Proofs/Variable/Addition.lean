import Dialogue.Play.Effect
import Mathlib.Algebra.Ring.Int.Defs
import Mathlib.Data.List.Forall2
namespace Dialogue

namespace Decimal

/-- An integer as it is written: one digit or more behind an optional sign. -/
inductive Literal : List Char → Int → Prop
  | plain {digits} (hne : digits ≠ []) (hd : ∀ c ∈ digits, c.isDigit = true) :
      Literal digits (digitsValue digits)
  | plus {digits} (hne : digits ≠ []) (hd : ∀ c ∈ digits, c.isDigit = true) :
      Literal ('+' :: digits) (digitsValue digits)
  | minus {digits} (hne : digits ≠ []) (hd : ∀ c ∈ digits, c.isDigit = true) :
      Literal ('-' :: digits) (-digitsValue digits)

def Fits (n : Int) : Prop :=
  -2 ^ 63 ≤ n ∧ n < 2 ^ 63

section Literal

variable {s : List Char} {n m : Int} {k : Int64}

theorem natural?_eq_some_iff {v : Nat} : natural? s = some v ↔
    (s ≠ [] ∧ ∀ c ∈ s, c.isDigit = true) ∧ v = digitsValue s := by
  rw [← List.all_eq_true, natural?]
  split
  · next h => simp [h, eq_comm]
  · next h => exact ⟨nofun, fun h' => absurd h'.1 h⟩

theorem integer?_minus (r : List Char) :
    integer? ('-' :: r) = (natural? r).map fun v : Nat => -(v : Int) := by
  rw [integer?]
  cases natural? r <;> rfl

theorem integer?_plus (r : List Char) :
    integer? ('+' :: r) = (natural? r).map fun v : Nat => (v : Int) := by
  rw [integer?]
  cases natural? r <;> rfl

theorem integer?_plain (hm : s.head? ≠ some '-') (hp : s.head? ≠ some '+') :
    integer? s = (natural? s).map fun v : Nat => (v : Int) := by
  unfold integer?
  split
  · exact absurd rfl hm
  · exact absurd rfl hp
  · cases natural? s <;> rfl

theorem literal_of_integer? (h : integer? s = some n) : Literal s n := by
  by_cases hm : s.head? = some '-'
  · obtain ⟨r, rfl⟩ := List.head?_eq_some_iff.mp hm
    rw [integer?_minus] at h
    obtain ⟨v, hv, rfl⟩ := Option.map_eq_some_iff.mp h
    obtain ⟨⟨hne, hd⟩, rfl⟩ := natural?_eq_some_iff.mp hv
    exact .minus hne hd
  by_cases hp : s.head? = some '+'
  · obtain ⟨r, rfl⟩ := List.head?_eq_some_iff.mp hp
    rw [integer?_plus] at h
    obtain ⟨v, hv, rfl⟩ := Option.map_eq_some_iff.mp h
    obtain ⟨⟨hne, hd⟩, rfl⟩ := natural?_eq_some_iff.mp hv
    exact .plus hne hd
  · rw [integer?_plain hm hp] at h
    obtain ⟨v, hv, rfl⟩ := Option.map_eq_some_iff.mp h
    obtain ⟨⟨hne, hd⟩, rfl⟩ := natural?_eq_some_iff.mp hv
    exact .plain hne hd

theorem integer?_of_literal (h : Literal s n) : integer? s = some n := by
  cases h with
  | plain hne hd =>
    have hs (c : Char) (hc : c.isDigit = false) : s.head? ≠ some c := by
      intro hh
      rw [hd c (List.mem_of_mem_head? hh)] at hc
      cases hc
    rw [integer?_plain (hs '-' rfl) (hs '+' rfl), natural?_eq_some_iff.mpr ⟨⟨hne, hd⟩, rfl⟩]
    rfl
  | plus hne hd =>
    rw [integer?_plus, natural?_eq_some_iff.mpr ⟨⟨hne, hd⟩, rfl⟩]
    rfl
  | minus hne hd =>
    rw [integer?_minus, natural?_eq_some_iff.mpr ⟨⟨hne, hd⟩, rfl⟩]
    rfl

theorem Literal.unique (h : Literal s n) (h' : Literal s m) : n = m :=
  Option.some.inj ((integer?_of_literal h).symm.trans (integer?_of_literal h'))

theorem fits_toInt (k : Int64) : Fits k.toInt :=
  ⟨k.le_toInt, k.toInt_lt⟩

theorem exists_toInt64? (h : Fits n) : ∃ k, toInt64? n = some k ∧ k.toInt = n := by
  have hn : toInt64? n = some (Int64.ofInt n) := if_pos ⟨h.1, Int.le_of_lt_add_one h.2⟩
  exact ⟨_, hn, toInt_of_toInt64? hn⟩

theorem toInt64?_of_not_fits (h : ¬Fits n) : toInt64? n = none := by
  rw [Option.eq_none_iff_forall_ne_some]
  intro k hk
  rw [← toInt_of_toInt64? hk] at h
  exact h (fits_toInt k)

theorem exists_int64? (h : Literal s n) (hn : Fits n) : ∃ k, int64? s = some k ∧ k.toInt = n := by
  obtain ⟨k, hk, he⟩ := exists_toInt64? hn
  refine ⟨k, ?_, he⟩
  rw [int64?, integer?_of_literal h, Option.bind_some, hk]

theorem literal_of_int64? (h : int64? s = some k) : Literal s k.toInt := by
  obtain ⟨n, hn, hk⟩ := Option.bind_eq_some_iff.mp h
  rw [toInt_of_toInt64? hk]
  exact literal_of_integer? hn

end Literal

end Decimal

namespace Store

open Decimal (Literal Fits fits_toInt)

inductive IntegerAddition (s : Store) (name raw : String) (m : Int64) :
    Except AddFault Store → Prop
  | sum {n k} (h : Literal (Text.trim raw.toList) n) (hn : Fits n) (hk : k.toInt = m.toInt + n) :
      IntegerAddition s name raw m (.ok (s.insert name (.int k)))
  | overflow {n} (h : Literal (Text.trim raw.toList) n) (hn : Fits n)
      (ho : ¬Fits (m.toInt + n)) : IntegerAddition s name raw m (.error (.overflow name raw))
  | mismatch (h : ∀ n, Literal (Text.trim raw.toList) n → ¬Fits n) :
      IntegerAddition s name raw m (.error (.typeMismatch name raw (.int m)))

def accepted (s : Store) : List Assignment → List Assignment
  | [] => []
  | a :: r =>
    match s.add a.name a.raw with
    | .ok t => a :: accepted t r
    | .error _ => accepted s r

structure Addition (s : Store) (name raw : String) : Prop where
  accepted_iff : ∀ m, s.get? name = some (.int m) → ((∃ t, s.add name raw = .ok t) ↔
    ∃ n, Literal (Text.trim raw.toList) n ∧ Fits n ∧ Fits (m.toInt + n))
  mismatch_iff : ∀ m, s.get? name = some (.int m) →
    (s.add name raw = .error (.typeMismatch name raw (.int m)) ↔
      ∀ n, Literal (Text.trim raw.toList) n → ¬Fits n)
  overflow_iff : ∀ m, s.get? name = some (.int m) →
    (s.add name raw = .error (.overflow name raw) ↔
      ∃ n, Literal (Text.trim raw.toList) n ∧ Fits n ∧ ¬Fits (m.toInt + n))
  absent : s.get? name = none → s.add name raw = .ok (s.set name raw)
  succeeds : ∀ t, s.add name raw = .ok t →
    s.accumulate name raw = t ∧ ∀ other, other ≠ name → t.get? other = s.get? other
  fails : ∀ fault, s.add name raw = .error fault → s.accumulate name raw = s
  typed : ∀ other v, s.get? other = some v →
    ∃ w, (s.accumulate name raw).get? other = some w ∧ w.typeName = v.typeName

/-- What additions one after the other do to the variables that there are. -/
structure Additions (s : Store) (additions : List Assignment) (t : Store) : Prop where
  int : ∀ name m, s.get? name = some (.int m) → ∃ k deltas, t.get? name = some (.int k) ∧
    ((s.accepted additions).filter (·.name = name)).Forall₂
      (fun a n => Literal (Text.trim a.raw.toList) n) deltas ∧
    k.toInt = m.toInt + deltas.sum
  string : ∀ name text, s.get? name = some (.string text) → t.get? name =
    some (.string (text ++ String.join ((additions.filter (·.name = name)).map Assignment.raw)))
  typed : ∀ name v, s.get? name = some v → ∃ w, t.get? name = some w ∧ w.typeName = v.typeName

section Addition

variable {s t : Store} {name other raw : String} {v : Value} {m : Int64} {fault : AddFault}

theorem add_of_sum {w : Value} (h : s.get? name = some v) (hw : v.add raw = .ok w) :
    s.add name raw = .ok (s.insert name w) := by
  simp only [add, h, hw]

theorem add_of_mismatch (h : s.get? name = some v) (hw : v.add raw = .error .typeMismatch) :
    s.add name raw = .error (.typeMismatch name raw v) := by
  simp only [add, h, hw]

theorem add_of_overflow (h : s.get? name = some v) (hw : v.add raw = .error .overflow) :
    s.add name raw = .error (.overflow name raw) := by
  simp only [add, h, hw]

theorem accumulate_of_ok (h : s.add name raw = .ok t) : s.accumulate name raw = t := by
  rw [accumulate, h]

theorem accumulate_of_error (h : s.add name raw = .error fault) : s.accumulate name raw = s := by
  rw [accumulate, h]

theorem get?_of_add_self (h : s.add name raw = .ok t) (hv : s.get? name = some v) :
    ∃ w, v.add raw = .ok w ∧ t.get? name = some w := by
  cases hw : v.add raw with
  | ok w =>
    cases h.symm.trans (add_of_sum hv hw)
    exact ⟨w, rfl, Table.get?_insert_self s name w⟩
  | error refusal =>
    cases refusal with
    | typeMismatch => cases h.symm.trans (add_of_mismatch hv hw)
    | overflow => cases h.symm.trans (add_of_overflow hv hw)

theorem integerAddition (h : s.get? name = some (.int m)) (raw : String) :
    IntegerAddition s name raw m (s.add name raw) := by
  cases hd : Decimal.int64? (Text.trim raw.toList) with
  | some d =>
    have hl := Decimal.literal_of_int64? hd
    by_cases hs : Fits (m.toInt + d.toInt)
    · obtain ⟨k, hk, he⟩ := Decimal.exists_toInt64? hs
      rw [add_of_sum (w := .int k) h (by simp only [Value.add, hd, Value.addInt, hk]; rfl)]
      exact .sum hl (fits_toInt d) he
    · have hk := Decimal.toInt64?_of_not_fits hs
      rw [add_of_overflow h (by simp only [Value.add, hd, Value.addInt, hk]; rfl)]
      exact .overflow hl (fits_toInt d) hs
  | none =>
    rw [add_of_mismatch h (by simp only [Value.add, hd])]
    refine .mismatch fun n hl hn => ?_
    obtain ⟨k, hk, -⟩ := Decimal.exists_int64? hl hn
    cases hd.symm.trans hk

theorem accepted_iff_fits (h : s.get? name = some (.int m)) : (∃ t, s.add name raw = .ok t) ↔
    ∃ n, Literal (Text.trim raw.toList) n ∧ Fits n ∧ Fits (m.toInt + n) := by
  have ha := integerAddition h raw
  generalize s.add name raw = r at ha
  cases ha with
  | sum hl hn hk => exact iff_of_true ⟨_, rfl⟩ ⟨_, hl, hn, hk ▸ fits_toInt _⟩
  | overflow hl hn ho =>
    refine iff_of_false nofun ?_
    rintro ⟨n, hl', -, hs⟩
    rw [hl.unique hl'] at ho
    exact ho hs
  | mismatch hm =>
    refine iff_of_false nofun ?_
    rintro ⟨n, hl, hn, -⟩
    exact hm n hl hn

theorem mismatch_iff_not_literal (h : s.get? name = some (.int m)) :
    s.add name raw = .error (.typeMismatch name raw (.int m)) ↔
      ∀ n, Literal (Text.trim raw.toList) n → ¬Fits n := by
  have ha := integerAddition h raw
  generalize s.add name raw = r at ha
  cases ha with
  | sum hl hn _ => exact iff_of_false nofun fun hm => hm _ hl hn
  | overflow hl hn _ => exact iff_of_false nofun fun hm => hm _ hl hn
  | mismatch hm => exact iff_of_true rfl hm

theorem overflow_iff_not_fits (h : s.get? name = some (.int m)) :
    s.add name raw = .error (.overflow name raw) ↔
      ∃ n, Literal (Text.trim raw.toList) n ∧ Fits n ∧ ¬Fits (m.toInt + n) := by
  have ha := integerAddition h raw
  generalize s.add name raw = r at ha
  cases ha with
  | sum hl hn hk =>
    refine iff_of_false nofun ?_
    rintro ⟨n, hl', -, ho⟩
    rw [← hl.unique hl', ← hk] at ho
    exact ho (fits_toInt _)
  | overflow hl hn ho => exact iff_of_true rfl ⟨_, hl, hn, ho⟩
  | mismatch hm =>
    refine iff_of_false nofun ?_
    rintro ⟨n, hl, hn, -⟩
    exact hm n hl hn

theorem get?_accumulate_of_ne (h : other ≠ name) :
    (s.accumulate name raw).get? other = s.get? other := by
  cases ha : s.add name raw with
  | error fault => rw [accumulate_of_error ha]
  | ok t => rw [accumulate_of_ok ha, get?_of_add ha h]

theorem typeName_accumulate (h : s.get? other = some v) :
    ∃ w, (s.accumulate name raw).get? other = some w ∧ w.typeName = v.typeName := by
  by_cases hn : other = name
  · subst hn
    cases ha : s.add other raw with
    | error fault =>
      rw [accumulate_of_error ha]
      exact ⟨v, h, rfl⟩
    | ok t =>
      obtain ⟨w, hw, ht⟩ := get?_of_add_self ha h
      rw [accumulate_of_ok ha]
      exact ⟨w, ht, Value.typeName_of_add hw⟩
  · exact ⟨v, (get?_accumulate_of_ne hn).trans h, rfl⟩

theorem addition (s : Store) (name raw : String) : Addition s name raw where
  accepted_iff _ := accepted_iff_fits
  mismatch_iff _ := mismatch_iff_not_literal
  overflow_iff _ := overflow_iff_not_fits
  absent := add_of_get?_none
  succeeds _ h := ⟨accumulate_of_ok h, fun _ => get?_of_add h⟩
  fails _ := accumulate_of_error
  typed _ _ := typeName_accumulate

end Addition

section Additions

variable {s : Store} {name text : String} {v : Value} {m : Int64}

theorem update_cons (s : Store) (a : Assignment) (r : List Assignment) :
    Action.update s (.addVariables (a :: r)) =
      Action.update (s.accumulate a.name a.raw) (.addVariables r) :=
  rfl

theorem accepted_of_ok {t : Store} {a : Assignment} (h : s.add a.name a.raw = .ok t)
    (r : List Assignment) : s.accepted (a :: r) = a :: t.accepted r := by
  rw [accepted, h]

theorem accepted_of_error {fault : AddFault} {a : Assignment}
    (h : s.add a.name a.raw = .error fault) (r : List Assignment) :
    s.accepted (a :: r) = s.accepted r := by
  rw [accepted, h]

theorem int_of_additions (h : s.get? name = some (.int m)) (additions : List Assignment) :
    ∃ k deltas, (Action.update s (.addVariables additions)).get? name = some (.int k) ∧
      ((s.accepted additions).filter (·.name = name)).Forall₂
        (fun a n => Literal (Text.trim a.raw.toList) n) deltas ∧
      k.toInt = m.toInt + deltas.sum := by
  induction additions generalizing s m with
  | nil => exact ⟨m, [], h, .nil, (Int.add_zero _).symm⟩
  | cons a r ih =>
    rw [update_cons]
    cases ha : s.add a.name a.raw with
    | error fault =>
      rw [accumulate_of_error ha, accepted_of_error ha]
      exact ih h
    | ok t =>
      rw [accumulate_of_ok ha, accepted_of_ok ha]
      by_cases hn : a.name = name
      · subst hn
        have hs := integerAddition h a.raw
        rw [ha] at hs
        cases hs with
        | @sum n j hl hf hj =>
          obtain ⟨k, deltas, hk, hd, he⟩ := ih (Table.get?_insert_self s a.name (.int j))
          refine ⟨k, n :: deltas, hk, ?_, ?_⟩
          · rw [List.filter_cons, if_pos (decide_eq_true rfl)]
            exact .cons hl hd
          · rw [List.sum_cons, he, hj, Int.add_assoc]
      · rw [List.filter_cons, if_neg (by rwa [decide_eq_true_eq])]
        apply ih
        rw [get?_of_add ha (Ne.symm hn), h]

theorem string_of_additions (h : s.get? name = some (.string text))
    (additions : List Assignment) :
    (Action.update s (.addVariables additions)).get? name = some (.string
      (text ++ String.join ((additions.filter (·.name = name)).map Assignment.raw))) := by
  induction additions generalizing s text with
  | nil =>
    rw [List.filter_nil, List.map_nil, String.join_nil, String.append_empty]
    exact h
  | cons a r ih =>
    rw [update_cons, List.filter_cons]
    by_cases hn : a.name = name
    · subst hn
      have ha := add_of_sum (w := .string (text ++ a.raw)) h rfl
      rw [accumulate_of_ok ha, ih (Table.get?_insert_self s a.name _),
        if_pos (decide_eq_true rfl), List.map_cons, String.join_cons, String.append_assoc]
    · rw [if_neg (by rwa [decide_eq_true_eq])]
      apply ih
      rw [get?_accumulate_of_ne (Ne.symm hn), h]

theorem typeName_of_additions (h : s.get? name = some v) (additions : List Assignment) :
    ∃ w, (Action.update s (.addVariables additions)).get? name = some w ∧
      w.typeName = v.typeName := by
  induction additions generalizing s v with
  | nil => exact ⟨v, h, rfl⟩
  | cons a r ih =>
    obtain ⟨w, hw, ht⟩ := typeName_accumulate h
    obtain ⟨u, hu, he⟩ := ih hw
    exact ⟨u, hu, he.trans ht⟩

end Additions

/-- An integer variable gains the exact sum of the accepted additions, a string all texts in order,
and no type changes. -/
theorem additions_exact (s : Store) (additions : List Assignment) :
    Additions s additions (Action.update s (.addVariables additions)) ∧
      ∀ name raw, Addition (Action.update s (.addVariables additions)) name raw := by
  refine ⟨⟨?_, ?_, ?_⟩, ?_⟩
  · intro name m h
    exact int_of_additions h additions
  · intro name text h
    exact string_of_additions h additions
  · intro name v h
    exact typeName_of_additions h additions
  · intro name raw
    exact addition _ name raw

end Store

end Dialogue
