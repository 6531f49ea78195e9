import Dialogue.Proofs.Script.Inline
import Dialogue.Proofs.Text.Pattern
import Mathlib.Data.List.TakeWhile
namespace Dialogue.Script

open Text Text.Pattern

/-- A value between two equal quotes; the quotes are no part of what is found. -/
def quotedPattern (q : Char) : Pattern :=
  seq (char (· == q)) (seq (group (many (· != q))) (char (· == q)))

def barePattern : Pattern :=
  group (many1 fun c => c != ' ' && c != '\t' && c != ']')

def valuePattern : Pattern :=
  alt (quotedPattern '"') (alt (quotedPattern '\x27') barePattern)

/-- A name, an equality sign and a value: between double quotes, between single quotes, or else up
to the next blank or closing bracket. -/
def attributePattern : Pattern :=
  seq (group (many1 isWord)) (seq (char (· == '=')) valuePattern)

def outcome (w : Way) : List (List Char) × List Char :=
  (w.groups, w.rest)

section Value

variable {s : List Char}

theorem ways_quotedPattern (q c : Char) (r : List Char) :
    ((quotedPattern q).ways (c :: r)).map outcome =
      if c = q ∧ q ∈ r then [([r.takeWhile (· != q)], (r.dropWhile (· != q)).tail)] else [] := by
  have hb : (seq (group (many (· != q))) (char (· == q))).ways r =
      ((char (· == q)).ways (r.dropWhile (· != q))).map
        (Way.after (r.takeWhile (· != q)) [r.takeWhile (· != q)]) := by
    rw [ways]
    apply flatMap_group_many
    rintro ⟨taken, groups, rest⟩ d hd hne
    obtain ⟨t, rfl⟩ := List.head?_eq_some_iff.mp hd
    rw [bne_iff_ne] at hne
    simp only [ways, beq_iff_eq, if_neg hne, List.map_nil]
  rw [quotedPattern, ways_seq_char, hb]
  simp only [beq_iff_eq]
  by_cases hc : c = q
  · rw [if_pos hc]
    cases hd : r.dropWhile (· != q) with
    | nil =>
      have hq : q ∉ r := by
        intro hm
        have hne := List.dropWhile_eq_nil_iff.mp hd q hm
        rw [bne_self_eq_false] at hne
        cases hne
      rw [if_neg fun h => hq h.2]
      rfl
    | cons d t =>
      obtain rfl : d = q := by
        have hh := List.head?_dropWhile_not (· != q) r
        rw [hd] at hh
        simpa using hh
      have hm : d ∈ r := (List.dropWhile_sublist _).subset (hd ▸ List.mem_cons_self)
      rw [if_pos ⟨hc, hm⟩, ways, if_pos (beq_self_eq_true d)]
      rfl
  · rw [if_neg hc, if_neg fun h => hc h.1]
    rfl

theorem ways_quotes (s : List Char) :
    ((quotedPattern '"').ways s ++ (quotedPattern '\x27').ways s).map outcome =
      ((quoted? s).map fun v => ([v.1], v.2)).toList := by
  cases s with
  | nil => rfl
  | cons c r =>
    rw [List.map_append, ways_quotedPattern, ways_quotedPattern, quoted?]
    by_cases hd : c = '"'
    · subst hd
      by_cases hm : '"' ∈ r <;> simp [hm]
    · by_cases hs : c = '\x27'
      · subst hs
        by_cases hm : '\x27' ∈ r <;> simp [hm]
      · simp [hd, hs]

theorem head?_barePattern (s : List Char) :
    (barePattern.ways s).head?.map outcome = (bare? s).map fun v => ([v.1], v.2) := by
  have hk : (fun c => c != ' ' && c != '\t' && c != ']') = fun c => !endsBare c := by
    funext c
    simp only [endsBare, Bool.not_or, bne]
  rw [barePattern, hk, head?_group_many1, bare?]
  split <;> rfl

theorem head?_valuePattern (s : List Char) :
    (valuePattern.ways s).head?.map outcome = (value? s).map fun v => ([v.1], v.2) := by
  rw [valuePattern, ways, ways, ← List.append_assoc, List.head?_append, Option.map_or,
    head?_barePattern, ← List.head?_map, ways_quotes, value?]
  cases quoted? s <;> rfl

end Value

section Attribute

variable {s : List Char}

/-- An attribute can only be matched with its name in full, since what follows is no part of a
name. -/
theorem ways_attributePattern (s : List Char) : attributePattern.ways s =
    if s.takeWhile isWord = [] then []
    else ((seq (char (· == '=')) valuePattern).ways (s.dropWhile isWord)).map
      (Way.after (s.takeWhile isWord) [s.takeWhile isWord]) := by
  rw [attributePattern, ways]
  apply flatMap_group_many1
  rintro ⟨taken, groups, rest⟩ c hc hw
  obtain ⟨t, rfl⟩ := List.head?_eq_some_iff.mp hc
  have hne : ¬ (c == '=') = true := by
    rw [beq_iff_eq]
    rintro rfl
    exact absurd hw (by decide +kernel)
  rw [ways_seq_char, if_neg hne, List.map_nil]

theorem head?_attributePattern (s : List Char) : (attributePattern.ways s).head?.map outcome =
    (attribute? s).map fun m => ([m.name, m.value], m.rest) := by
  rw [ways_attributePattern, attribute?]
  split
  · rfl
  · cases s.dropWhile isWord with
    | nil => rfl
    | cons c r =>
      rw [ways_seq_char]
      by_cases hc : c = '='
      · subst hc
        have ho : outcome ∘ Way.after (s.takeWhile isWord) [s.takeWhile isWord] ∘
            Way.after ['='] [] = (fun o => (s.takeWhile isWord :: o.1, o.2)) ∘ outcome := rfl
        rw [if_pos (beq_self_eq_true '='), List.map_map, List.head?_map, Option.map_map, ho,
          ← Option.map_map, head?_valuePattern, Option.map_map]
        split
        · next h =>
          injection h with _ h
          rw [h, Option.map_map]
          rfl
        · next hne => exact absurd rfl (hne r)
      · have hne : ¬ (c == '=') = true := by rwa [beq_iff_eq]
        rw [if_neg hne]
        split
        · next h =>
          injection h with h _
          exact absurd h hc
        · rfl

theorem ways_eq_nil_iff : attributePattern.ways s = [] ↔ attribute? s = none := by
  rw [← List.head?_eq_none_iff, ← Option.map_eq_none_iff (f := outcome), head?_attributePattern,
    Option.map_eq_none_iff]

theorem exists_way {m : AttributeMatch} (h : attribute? s = some m) :
    ∃ w others, attributePattern.ways s = w :: others ∧ w.groups = [m.name, m.value] ∧
      w.rest = m.rest := by
  have hw := head?_attributePattern s
  rw [h] at hw
  obtain ⟨w, hw, ho⟩ := Option.map_eq_some_iff.mp hw
  obtain ⟨others, hs⟩ := List.head?_eq_some_iff.mp hw
  injection ho with hg hr
  exact ⟨w, others, hs, hg, hr⟩

theorem finds_attributes (s : List Char) :
    attributePattern.Finds s ((attributes s).map fun a => [a.1.toList, a.2.toList]) := by
  obtain ⟨n, hn⟩ : ∃ n, s.length = n := ⟨_, rfl⟩
  induction n using Nat.strongRecOn generalizing s with
  | _ n ih =>
  subst hn
  cases s with
  | nil =>
    rw [attributes_nil]
    apply Finds.stop
    intro t ht
    rw [List.suffix_nil.mp ht]
    rfl
  | cons c r =>
    cases h : attribute? (c :: r) with
    | none =>
      rw [attributes_of_no_match h]
      exact .cons (ways_eq_nil_iff.mpr h) (ih _ (Nat.lt_succ_self _) r rfl)
    | some m =>
      obtain ⟨w, others, hw, hg, hr⟩ := exists_way h
      rw [attributes_of_match h, List.map_cons, String.toList_ofList, String.toList_ofList, ← hg]
      apply Finds.here hw
      rw [hr]
      exact ih _ (length_attribute? h) m.rest rfl

end Attribute

/-- The attributes of a text are what a search for the pattern of an attribute finds in it, each
with its full name. -/
theorem finds_attributes_iff (s : List Char) :
    (∀ found, attributePattern.Finds s found ↔
      found = (attributes s).map fun a => [a.1.toList, a.2.toList]) ∧
    (∀ w ∈ attributePattern.ways s, w.groups.head? = some (s.takeWhile isWord)) ∧
    ∀ c, isWord c = true → attributePattern.ways s ≠ [] → attributePattern.ways (c :: s) ≠ [] := by
  refine ⟨?_, ?_, ?_⟩
  · intro found
    constructor
    · intro h
      exact (finds_attributes s).unique h
    · rintro rfl
      exact finds_attributes s
  · intro w hw
    rw [ways_attributePattern] at hw
    split at hw
    · cases hw
    · obtain ⟨v, _, rfl⟩ := List.mem_map.mp hw
      rfl
  · intro c hc hs hn
    rw [ways_eq_nil_iff] at hn
    exact hs (ways_eq_nil_iff.mpr (attribute?_tail hc hn))

end Dialogue.Script
