import Mathlib.Data.List.Infix
namespace Dialogue.Text

/-- Patterns for the beginning of a text; the first alternative comes first, and a repetition takes
as much as it can. -/
inductive Pattern where
  | char (kind : Char → Bool)
  | many (kind : Char → Bool)
  | seq (first second : Pattern)
  | alt (first second : Pattern)
  | group (inner : Pattern)

/-- One way to match a pattern: the text that it takes, what its groups take, and the text that is
left. -/
structure Way where
  taken : List Char
  groups : List (List Char)
  rest : List Char

namespace Way

def after (taken : List Char) (groups : List (List Char)) (w : Way) : Way :=
  ⟨taken ++ w.taken, groups ++ w.groups, w.rest⟩

def grouped (w : Way) : Way :=
  { w with groups := w.taken :: w.groups }

end Way

/-- The ways to take characters of a kind, the longest first. -/
def runs (kind : Char → Bool) : List Char → List Way
  | [] => [⟨[], [], []⟩]
  | c :: r =>
    if kind c then (runs kind r).map (Way.after [c] []) ++ [⟨[], [], c :: r⟩]
    else [⟨[], [], c :: r⟩]

namespace Pattern

def many1 (kind : Char → Bool) : Pattern :=
  seq (char kind) (many kind)

/-- All ways to match a pattern at the beginning of a text, in the order in which they are tried. -/
def ways : Pattern → List Char → List Way
  | char _, [] => []
  | char kind, c :: r => if kind c then [⟨[c], [], r⟩] else []
  | many kind, s => runs kind s
  | seq first second, s =>
    (first.ways s).flatMap fun w => (second.ways w.rest).map (Way.after w.taken w.groups)
  | alt first second, s => first.ways s ++ second.ways s
  | group inner, s => (inner.ways s).map Way.grouped

/-- A search through a text gives what the groups take in each match, from the left and without
overlap. -/
inductive Finds (p : Pattern) : List Char → List (List (List Char)) → Prop
  | stop {s} (h : ∀ t, t <:+ s → p.ways t = []) : Finds p s []
  | next {skipped s w others found}
      (hf : ∀ t, t <:+ skipped ++ s → s.length < t.length → p.ways t = [])
      (hw : p.ways s = w :: others) (hr : Finds p w.rest found) :
      Finds p (skipped ++ s) (w.groups :: found)

variable {p : Pattern} {s : List Char} {found : List (List (List Char))}

theorem Finds.unique {others : List (List (List Char))} (h : Finds p s found)
    (ho : Finds p s others) : others = found := by
  induction h generalizing others with
  | stop h =>
    cases ho with
    | stop => rfl
    | @next skipped s _ _ _ _ hw _ =>
      rw [h s (List.suffix_append skipped s)] at hw
      cases hw
  | @next skipped s w _ _ hf hw _ ih =>
    generalize he : skipped ++ s = text at ho
    cases ho with
    | stop h =>
      rw [h s ⟨skipped, he⟩] at hw
      cases hw
    | @next skipped' s' w' _ _ hf' hw' hr' =>
      -- Neither match begins before the other one.
      have hle : s'.length ≤ s.length := by
        apply Nat.le_of_not_lt
        intro hlt
        rw [hf s' (he ▸ List.suffix_append skipped' s') hlt] at hw'
        cases hw'
      have hge : s.length ≤ s'.length := by
        apply Nat.le_of_not_lt
        intro hlt
        rw [hf' s (he ▸ List.suffix_append skipped s) hlt] at hw
        cases hw
      obtain ⟨_, rfl⟩ := List.append_inj' he (Nat.le_antisymm hge hle)
      cases hw.symm.trans hw'
      rw [ih hr']

theorem Finds.cons {c : Char} (h : p.ways (c :: s) = []) (hr : Finds p s found) :
    Finds p (c :: s) found := by
  cases hr with
  | stop hs =>
    apply Finds.stop
    intro t ht
    rcases List.suffix_cons_iff.mp ht with rfl | ht
    · exact h
    · exact hs t ht
  | @next skipped s _ _ _ hf hw hr =>
    change Finds p ((c :: skipped) ++ _) _
    apply Finds.next _ hw hr
    intro t ht hl
    rcases List.suffix_cons_iff.mp ht with rfl | ht
    · exact h
    · exact hf t ht hl

theorem Finds.here {w : Way} {others : List Way} (hw : p.ways s = w :: others)
    (hr : Finds p w.rest found) : Finds p s (w.groups :: found) := by
  change Finds p ([] ++ s) _
  apply Finds.next _ hw hr
  intro t ht hl
  exact absurd ht.length_le (Nat.not_le.mpr hl)

end Pattern

section Runs

variable {kind : Char → Bool} {s : List Char}

theorem head?_runs (kind : Char → Bool) (s : List Char) :
    (runs kind s).head? = some ⟨s.takeWhile kind, [], s.dropWhile kind⟩ := by
  induction s with
  | nil => rfl
  | cons c r ih =>
    rw [runs]
    split
    · next hc =>
      rw [List.head?_append, List.head?_map, ih, List.takeWhile_cons_of_pos hc,
        List.dropWhile_cons_of_pos hc]
      rfl
    · next hc =>
      rw [List.takeWhile_cons_of_neg hc, List.dropWhile_cons_of_neg hc]
      rfl

/-- To give characters back is of no use where what follows refuses them. -/
theorem flatMap_runs {f : Way → List Way}
    (hf : ∀ w, ∀ c ∈ w.rest.head?, kind c = true → f w = []) :
    (runs kind s).flatMap f = f ⟨s.takeWhile kind, [], s.dropWhile kind⟩ := by
  induction s generalizing f with
  | nil => exact List.flatMap_singleton f _
  | cons c r ih =>
    rw [runs]
    split
    · next hc =>
      have hb : f ⟨[], [], c :: r⟩ = [] := hf _ c rfl hc
      rw [List.flatMap_append, List.flatMap_map, List.flatMap_singleton, hb, List.append_nil,
        List.takeWhile_cons_of_pos hc, List.dropWhile_cons_of_pos hc, ih]
      · rfl
      · intro w d hd hk
        exact hf _ d hd hk
    · next hc =>
      rw [List.takeWhile_cons_of_neg hc, List.dropWhile_cons_of_neg hc, List.flatMap_singleton]

namespace Pattern

theorem ways_seq_char (p : Pattern) (c : Char) (r : List Char) :
    (seq (char kind) p).ways (c :: r) =
      if kind c then (p.ways r).map (Way.after [c] []) else [] := by
  rw [ways, ways]
  split
  · exact List.flatMap_singleton _ _
  · rfl

theorem ways_group_many1 (c : Char) (r : List Char) : (group (many1 kind)).ways (c :: r) =
    if kind c then (runs kind r).map (Way.grouped ∘ Way.after [c] []) else [] := by
  rw [ways, many1, ways_seq_char, ways]
  split
  · exact List.map_map
  · rfl

theorem head?_group_many1 (kind : Char → Bool) (s : List Char) :
    ((group (many1 kind)).ways s).head? =
      if s.takeWhile kind = [] then none
      else some ⟨s.takeWhile kind, [s.takeWhile kind], s.dropWhile kind⟩ := by
  cases s with
  | nil => rfl
  | cons c r =>
    rw [ways_group_many1]
    split
    · next hc =>
      rw [List.head?_map, head?_runs, List.takeWhile_cons_of_pos hc,
        List.dropWhile_cons_of_pos hc, if_neg (List.cons_ne_nil _ _)]
      rfl
    · next hc =>
      rw [List.takeWhile_cons_of_neg hc, if_pos rfl]
      rfl

theorem flatMap_group_many1 {f : Way → List Way}
    (hf : ∀ w, ∀ c ∈ w.rest.head?, kind c = true → f w = []) :
    ((group (many1 kind)).ways s).flatMap f =
      if s.takeWhile kind = [] then []
      else f ⟨s.takeWhile kind, [s.takeWhile kind], s.dropWhile kind⟩ := by
  cases s with
  | nil => rfl
  | cons c r =>
    rw [ways_group_many1]
    split
    · next hc =>
      rw [List.flatMap_map, flatMap_runs, List.takeWhile_cons_of_pos hc,
        List.dropWhile_cons_of_pos hc, if_neg (List.cons_ne_nil _ _)]
      · rfl
      · intro w d hd hk
        exact hf _ d hd hk
    · next hc =>
      rw [List.takeWhile_cons_of_neg hc, if_pos rfl]
      rfl

theorem flatMap_group_many {f : Way → List Way}
    (hf : ∀ w, ∀ c ∈ w.rest.head?, kind c = true → f w = []) :
    ((group (many kind)).ways s).flatMap f =
      f ⟨s.takeWhile kind, [s.takeWhile kind], s.dropWhile kind⟩ := by
  rw [ways, ways, List.flatMap_map, flatMap_runs]
  · rfl
  · intro w d hd hk
    exact hf _ d hd hk

end Pattern

end Runs

end Dialogue.Text
