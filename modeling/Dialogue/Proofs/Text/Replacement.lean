import Dialogue.Text.Lines
import Dialogue.Text.Replace
namespace Dialogue.Text

/-- A text and what becomes of it, piece by piece. -/
inductive Replaced (old new : List Char) : List Char → List Char → Prop
  | nil : Replaced old new [] []
  | keep {c r t} (h : ¬ old <+: c :: r) (hr : Replaced old new r t) :
      Replaced old new (c :: r) (c :: t)
  | swap {r t} (hr : Replaced old new r t) : Replaced old new (old ++ r) (new ++ t)

section Replaced

variable {old new s t a b : List Char} {c d : Char}

theorem replaced (new : List Char) (hne : old ≠ []) (s : List Char) :
    Replaced old new s (replace old new s) := by
  -- The induction is on the length, for an occurrence is passed over at once.
  obtain ⟨n, hn⟩ : ∃ n, s.length = n := ⟨_, rfl⟩
  induction n using Nat.strongRecOn generalizing s with
  | _ n ih =>
  subst hn
  cases s with
  | nil =>
    rw [replace_nil]
    exact .nil
  | cons c r =>
    by_cases hp : old <+: c :: r
    · obtain ⟨u, hu⟩ := hp
      rw [← hu, replace_append_left hne]
      apply Replaced.swap
      apply ih u.length _ u rfl
      have hl := congrArg List.length hu
      have hpos := List.length_pos_iff.mpr hne
      rw [List.length_append] at hl
      omega
    · rw [replace_cons_of_not_isPrefix hp]
      exact .keep hp (ih _ (Nat.lt_succ_self _) r rfl)

theorem prefix_of_append_cons (hc : c ∉ old) (h : old <+: a ++ c :: b) : old <+: a := by
  induction a generalizing old with
  | nil =>
    rcases List.prefix_cons_iff.mp h with rfl | ⟨u, rfl, _⟩
    · exact List.nil_prefix
    · exact absurd List.mem_cons_self hc
  | cons d a ih =>
    rcases List.prefix_cons_iff.mp h with rfl | ⟨u, rfl, hu⟩
    · exact List.nil_prefix
    · rw [List.cons_prefix_cons]
      exact ⟨rfl, ih (fun hm => hc (List.mem_cons_of_mem d hm)) hu⟩

/-- A text is replaced piece by piece if it is cut at a character that the pattern does not hold. -/
theorem replace_append_cons (hne : old ≠ []) (hc : c ∉ old) :
    replace old new (a ++ c :: b) = replace old new a ++ c :: replace old new b := by
  have ha := replaced new hne a
  generalize replace old new a = t at ha
  induction ha with
  | nil =>
    apply replace_cons_of_not_isPrefix
    intro h
    exact hne (List.prefix_nil.mp (prefix_of_append_cons (a := []) hc h))
  | @keep d r t h _ ih =>
    rw [List.cons_append, List.cons_append, ← ih, replace_cons_of_not_isPrefix]
    intro hp
    exact h (prefix_of_append_cons (a := d :: r) hc hp)
  | swap _ ih => rw [List.append_assoc, replace_append_left hne, ih, List.append_assoc]

theorem Replaced.mem (h : Replaced old new s t) (hc : c ∈ t) : c ∈ s ∨ c ∈ new := by
  induction h with
  | nil => exact .inl hc
  | keep _ _ ih =>
    rcases List.mem_cons.mp hc with rfl | hc
    · exact .inl List.mem_cons_self
    · exact (ih hc).imp_left (List.mem_cons_of_mem _)
  | swap _ ih =>
    rcases List.mem_append.mp hc with hc | hc
    · exact .inr hc
    · exact (ih hc).imp_left (List.mem_append_right _)

theorem Replaced.mem_of_mem (h : Replaced old new s t) (ho : c ∉ old) (hc : c ∈ s) : c ∈ t := by
  induction h with
  | nil => exact hc
  | keep _ _ ih =>
    rcases List.mem_cons.mp hc with rfl | hc
    · exact List.mem_cons_self
    · exact List.mem_cons_of_mem _ (ih hc)
  | swap _ ih =>
    rcases List.mem_append.mp hc with hc | hc
    · exact absurd hc ho
    · exact List.mem_append_right _ (ih hc)

theorem Replaced.subset_of_occurrence (h : Replaced old new s t) (hne : old ≠ []) (hi : old <:+: s) :
    new ⊆ t := by
  induction h with
  | nil => exact absurd (List.infix_nil.mp hi) hne
  | keep hp _ ih =>
    have hi := (List.infix_cons_iff.mp hi).resolve_left hp
    exact List.subset_cons_of_subset _ (ih hi)
  | swap => exact List.subset_append_left _ _

section Occurrence

variable {p q u : List Char}

theorem Replaced.prefix_of_not_mem (h : Replaced old (c :: q) s t) (hc : c ∉ u) (hu : u <+: t) :
    u <+: s := by
  induction h generalizing u with
  | nil => exact hu
  | keep _ _ ih =>
    cases u with
    | nil => exact List.nil_prefix
    | cons d u =>
      rw [List.mem_cons, not_or] at hc
      rw [List.cons_prefix_cons] at hu ⊢
      exact ⟨hu.1, ih hc.2 hu.2⟩
  | swap =>
    cases u with
    | nil => exact List.nil_prefix
    | cons d u =>
      rw [List.mem_cons, not_or] at hc
      rw [List.cons_append, List.cons_prefix_cons] at hu
      exact absurd hu.1.symm hc.1

theorem infix_of_infix_append (hc : c ∉ q) (h : c :: p <:+: q ++ t) : c :: p <:+: t := by
  induction q with
  | nil => exact h
  | cons d q ih =>
    rw [List.mem_cons, not_or] at hc
    rw [List.cons_append, List.infix_cons_iff, List.cons_prefix_cons] at h
    rcases h with h | h
    · exact absurd h.1 hc.1
    · exact ih hc.2 h

/-- A pattern that is replaced wherever it occurs is gone afterwards. -/
theorem Replaced.absent (h : Replaced old (c :: q) s t) (hp : c ∉ p) (hq : c ∉ q)
    (hpq : ¬ p <+: q) (hqp : ¬ q <+: p) (hs : ∀ r, r <:+ s → c :: p <+: r → old <+: r) :
    ¬ c :: p <:+: t := by
  -- An occurrence begins where one stood before, or where `c :: q` is written, and `p` is not `q`.
  induction h with
  | nil => exact fun hi => List.cons_ne_nil c p (List.infix_nil.mp hi)
  | @keep d r t ho hr ih =>
    rw [List.infix_cons_iff, not_or]
    constructor
    · intro hi
      rw [List.cons_prefix_cons] at hi
      apply ho (hs _ List.suffix_rfl _)
      rw [List.cons_prefix_cons]
      exact ⟨hi.1, hr.prefix_of_not_mem hp hi.2⟩
    · exact ih fun u hu => hs u (hu.trans (List.suffix_cons d r))
  | @swap r t hr ih =>
    rw [List.cons_append, List.infix_cons_iff, not_or, List.cons_prefix_cons]
    constructor
    · rintro ⟨-, hi⟩
      rcases List.prefix_or_prefix_of_prefix hi (List.prefix_append q t) with hi | hi
      · exact hpq hi
      · exact hqp hi
    · intro hi
      exact ih (fun u hu => hs u (hu.trans (List.suffix_append old r))) (infix_of_infix_append hq hi)

end Occurrence

theorem not_mem_replace (hne : old ≠ []) (hs : c ∉ s) (hn : c ∉ new) : c ∉ replace old new s :=
  fun hm => ((replaced new hne s).mem hm).elim hs hn

/-- The lines of a text are replaced one by one. -/
theorem splitOn_replace (hne : old ≠ []) (ho : c ∉ old) (hn : c ∉ new) (s : List Char) :
    splitOn c (replace old new s) = (splitOn c s).map (replace old new) := by
  obtain ⟨n, hl⟩ : ∃ n, s.length = n := ⟨_, rfl⟩
  induction n using Nat.strongRecOn generalizing s with
  | _ n ih =>
  subst hl
  by_cases hs : c ∈ s
  · obtain ⟨a, b, rfl, ha⟩ := List.eq_append_cons_of_mem hs
    have hb : b.length < (a ++ c :: b).length := by
      rw [List.length_append, List.length_cons]
      omega
    rw [replace_append_cons hne ho, splitOn_append_sep (not_mem_replace hne ha hn),
      splitOn_append_sep ha, List.map_cons, ih _ hb b rfl]
  · rw [splitOn_eq_singleton (not_mem_replace hne hs hn), splitOn_eq_singleton hs,
      List.map_singleton]

end Replaced

end Dialogue.Text
