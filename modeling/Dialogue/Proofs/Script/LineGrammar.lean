import Dialogue.Proofs.Script.Inline
import Dialogue.Proofs.Script.Outline
import Mathlib.Data.List.TakeWhile
namespace Dialogue

namespace Text

theorem trim_eq_nil_iff {s : List Char} : trim s = [] ↔ ∀ c ∈ s, isBlank c = true := by
  have hs : s.takeWhile isBlank ++ s.dropWhile isBlank = s := List.takeWhile_append_dropWhile
  rw [trim, trimEnd, trimStart, List.reverse_eq_nil_iff, List.dropWhile_eq_nil_iff]
  simp only [List.mem_reverse]
  constructor
  · intro h c hc
    rw [← hs, List.mem_append] at hc
    rcases hc with hc | hc
    · exact List.all_eq_true.mp List.all_takeWhile c hc
    · exact h c hc
  · intro h c hc
    exact h c ((List.dropWhile_sublist isBlank).subset hc)

/-- What stands in a text between two line breaks, or at an end of it, behind so many line breaks.
-/
def LineAt (text : List Char) (breaks : Nat) (raw : List Char) : Prop :=
  ∃ before after, text = before ++ raw ++ after ∧ '\n' ∉ raw ∧
    (∀ c ∈ before.getLast?, c = '\n') ∧ (∀ c ∈ after.head?, c = '\n') ∧
      before.count '\n' = breaks

section LineAt

variable {r raw : List Char} {c : Char} {i : Nat}

theorem lineAt_nil_iff : LineAt [] i raw ↔ i = 0 ∧ raw = [] := by
  constructor
  · rintro ⟨before, after, he, _, _, _, hi⟩
    obtain ⟨he, _⟩ := List.append_eq_nil_iff.mp he.symm
    obtain ⟨rfl, rfl⟩ := List.append_eq_nil_iff.mp he
    exact ⟨hi.symm, rfl⟩
  · rintro ⟨rfl, rfl⟩
    exact ⟨[], [], rfl, List.not_mem_nil, nofun, nofun, rfl⟩

theorem lineAt_break_iff : LineAt ('\n' :: r) i raw ↔
    (i = 0 ∧ raw = []) ∨ ∃ j, i = j + 1 ∧ LineAt r j raw := by
  constructor
  · rintro ⟨before, after, he, hn, hb, ha, hi⟩
    cases before with
    | nil =>
      cases raw with
      | nil => exact .inl ⟨hi.symm, rfl⟩
      | cons d raw =>
        injection he with hd _
        exact absurd (hd ▸ List.mem_cons_self) hn
    | cons d before =>
      injection he with hd he
      subst hd
      rw [List.count_cons_self] at hi
      refine .inr ⟨before.count '\n', hi.symm, before, after, he, hn, ?_, ha, rfl⟩
      intro c hc
      apply hb
      cases before with
      | nil => cases hc
      | cons e before => rwa [List.getLast?_cons_cons]
  · rintro (⟨rfl, rfl⟩ | ⟨j, rfl, before, after, he, hn, hb, ha, hj⟩)
    · refine ⟨[], '\n' :: r, rfl, List.not_mem_nil, nofun, ?_, rfl⟩
      rintro c ⟨⟩
      rfl
    · refine ⟨'\n' :: before, after, by rw [he]; rfl, hn, ?_, ha, by rw [List.count_cons_self, hj]⟩
      intro c hc
      cases before with
      | nil =>
        cases hc
        rfl
      | cons e before =>
        apply hb
        rwa [List.getLast?_cons_cons] at hc

theorem lineAt_cons_iff (hc : c ≠ '\n') : LineAt (c :: r) i raw ↔
    (i = 0 ∧ ∃ raw', raw = c :: raw' ∧ LineAt r 0 raw') ∨ ∃ j, i = j + 1 ∧ LineAt r i raw := by
  constructor
  · rintro ⟨before, after, he, hn, hb, ha, hi⟩
    cases before with
    | nil =>
      cases raw with
      | nil =>
        subst he
        exact absurd (ha c rfl) hc
      | cons d raw =>
        injection he with hd he
        subst hd
        rw [List.mem_cons, not_or] at hn
        exact .inl ⟨hi.symm, raw, rfl, [], after, he, hn.2, nofun, ha, rfl⟩
    | cons d before =>
      injection he with hd he
      subst hd
      cases before with
      | nil => exact absurd (hb c rfl) hc
      | cons e before =>
        rw [List.getLast?_cons_cons] at hb
        rw [List.count_cons_of_ne hc] at hi
        have hm : '\n' ∈ e :: before := by
          rw [← hb _ (List.getLast?_eq_some_getLast (List.cons_ne_nil e before))]
          exact List.getLast_mem _
        have hpos := List.count_pos_iff.mpr hm
        exact .inr ⟨i - 1, by omega, e :: before, after, he, hn, hb, ha, hi⟩
  · rintro (⟨rfl, raw, rfl, before, after, he, hn, hb, ha, hz⟩ |
      ⟨j, rfl, before, after, he, hn, hb, ha, hj⟩)
    · cases before with
      | nil =>
        refine ⟨[], after, by rw [he]; rfl, ?_, nofun, ha, rfl⟩
        exact List.not_mem_cons_of_ne_of_not_mem (Ne.symm hc) hn
      | cons e before =>
        have hm := List.getLast_mem (List.cons_ne_nil e before)
        rw [hb _ (List.getLast?_eq_some_getLast (List.cons_ne_nil e before))] at hm
        exact absurd (List.count_pos_iff.mpr hm) (by rw [hz]; exact Nat.lt_irrefl 0)
    · cases before with
      | nil => cases hj
      | cons e before =>
        refine ⟨c :: e :: before, after, by rw [he]; rfl, hn, ?_, ha, ?_⟩
        · rwa [List.getLast?_cons_cons]
        · rw [List.count_cons_of_ne hc, hj]

theorem getElem?_splitOn_iff {text : List Char} :
    (splitOn '\n' text)[i]? = some raw ↔ LineAt text i raw := by
  induction text generalizing i raw with
  | nil =>
    rw [lineAt_nil_iff, splitOn]
    cases i with
    | zero => simp [eq_comm]
    | succ i => simp
  | cons c r ih =>
    by_cases hc : c = '\n'
    · subst hc
      rw [lineAt_break_iff, splitOn_sep]
      cases i with
      | zero => simp [eq_comm]
      | succ i => simp [ih]
    · rw [lineAt_cons_iff hc, splitOn, if_neg hc]
      cases hs : splitOn '\n' r with
      | nil => exact absurd hs (splitOn_ne_nil '\n' r)
      | cons l ls =>
        rw [hs] at ih
        cases i with
        | zero => simp [← ih, eq_comm]
        | succ i => simp [← ih]

end LineAt

end Text

namespace Script

open Text

/-- A line between square brackets: a name, and behind white space a body. -/
inductive TagLine : List Char → List Char → Option (List Char) → Prop
  | bare {name} (hne : name ≠ []) (hn : ∀ c ∈ name, isWord c = true) :
      TagLine ('[' :: (name ++ [']'])) name none
  | full {name c rest} (hne : name ≠ []) (hn : ∀ d ∈ name, isWord d = true)
      (hc : isBlank c = true) :
      TagLine ('[' :: (name ++ c :: rest ++ [']'])) name (some (trim (c :: rest)))

/-- A line with a star, a text and, behind the first arrow that does not follow the star at once, a
label. -/
inductive OptionLine : List Char → List Char → List Char → Prop
  | intro {c a b} (ha : '>' ∉ a) (hb : ∃ d ∈ b, isBlank d = false) :
      OptionLine ('*' :: c :: (a ++ '>' :: b)) (trim (c :: a)) (trim b)

/-- What a line that is neither blank nor a comment stands for. -/
inductive Denotes (s : List Char) : Line → Prop
  | tag {name body} (h : TagLine s name body) :
      Denotes s (.tag (String.ofList name) (body.map String.ofList))
  | option {text target} (h : OptionLine s text target) :
      Denotes s (.option (String.ofList text) (String.ofList target))
  | prose (hne : s ≠ []) (hc : s.head? ≠ some '#') (ht : ∀ name body, ¬ TagLine s name body)
      (ho : ∀ text target, ¬ OptionLine s text target) : Denotes s (.prose (String.ofList s))

/-- The lines of a text that are neither blank nor comments, each with its number and what it stands
for. -/
structure Recognized (text : List Char) (ls : List (Nat × Line)) : Prop where
  ascending : ls.Pairwise fun x y => x.1 < y.1
  mem_iff : ∀ number line, (number, line) ∈ ls ↔
    ∃ breaks raw, LineAt text breaks raw ∧ number = breaks + 1 ∧ Denotes (trim raw) line
  kept_iff : ∀ breaks raw, LineAt text breaks raw → ((∃ line, (breaks + 1, line) ∈ ls) ↔
    (∃ c ∈ raw, isBlank c = false) ∧ (trim raw).head? ≠ some '#')

section Line

variable {s name text target : List Char} {body : Option (List Char)} {line : Line}

theorem bracketed?_eq_some_iff {inner : List Char} :
    bracketed? s = some inner ↔ s = '[' :: (inner ++ [']']) := by
  constructor
  · intro h
    unfold bracketed? at h
    split at h
    · split at h
      · next r hr =>
        cases h
        rw [List.dropLast_append_getLast? _ hr]
      · cases h
    · cases h
  · rintro rfl
    rw [bracketed?, if_pos List.getLast?_concat, List.dropLast_concat]

theorem tagLine?_of_tagLine (h : TagLine s name body) : tagLine? s = some (name, body) := by
  cases h with
  | bare hne hn =>
    obtain ⟨ht, hd⟩ := span_append (r := []) hn nofun
    rw [List.append_nil] at ht hd
    simp only [tagLine?, bracketed?_eq_some_iff.mpr rfl, Option.bind_some, ht, if_neg hne, hd]
  | @full name c rest hne hn hc =>
    have hw : ∀ d ∈ (c :: rest).head?, isWord d = false := by
      rintro d ⟨⟩
      rw [Bool.eq_false_iff]
      intro hw
      rw [not_isBlank_of_isWord hw] at hc
      cases hc
    obtain ⟨ht, hd⟩ := span_append hn hw
    simp only [tagLine?, bracketed?_eq_some_iff.mpr rfl, Option.bind_some, ht, if_neg hne, hd,
      if_pos hc]

theorem tagLine_of_tagLine? (h : tagLine? s = some (name, body)) : TagLine s name body := by
  obtain ⟨inner, hi, hl⟩ := Option.bind_eq_some_iff.mp h
  rw [bracketed?_eq_some_iff] at hi
  subst hi
  have hs : inner.takeWhile isWord ++ inner.dropWhile isWord = inner :=
    List.takeWhile_append_dropWhile
  have hn : ∀ c ∈ inner.takeWhile isWord, isWord c = true :=
    List.all_eq_true.mp List.all_takeWhile
  dsimp only at hl
  split at hl
  · cases hl
  · next hne =>
    split at hl
    · next hd =>
      cases hl
      rw [hd, List.append_nil] at hs
      have ht := TagLine.bare hne hn
      rwa [hs] at ht ⊢
    · next c r hd =>
      split at hl
      · next hc =>
        cases hl
        rw [hd] at hs
        have ht : TagLine ('[' :: (inner.takeWhile isWord ++ c :: r ++ [']'])) _ _ :=
          .full hne hn hc
        rwa [hs] at ht
      · cases hl

theorem tagLine?_eq_some_iff : tagLine? s = some (name, body) ↔ TagLine s name body :=
  ⟨tagLine_of_tagLine?, tagLine?_of_tagLine⟩

theorem optionLine?_of_optionLine (h : OptionLine s text target) :
    optionLine? s = some (text, target) := by
  cases h with
  | @intro c a b ha hb =>
    obtain ⟨d, hd, hb⟩ := hb
    have hne : ∀ x ∈ a, (x != '>') = true := by
      intro x hx
      rw [bne_iff_ne]
      rintro rfl
      exact ha hx
    obtain ⟨ht, hr⟩ := span_append (r := '>' :: b) hne (by rintro x ⟨⟩; rfl)
    have htrim : trim b ≠ [] := by
      rw [ne_eq, trim_eq_nil_iff]
      intro hall
      rw [hall d hd] at hb
      cases hb
    simp only [optionLine?, ht, hr, if_neg htrim]

theorem optionLine_of_optionLine? (h : optionLine? s = some (text, target)) :
    OptionLine s text target := by
  unfold optionLine? at h
  split at h
  · next c r =>
    have hs : r.takeWhile (· != '>') ++ r.dropWhile (· != '>') = r :=
      List.takeWhile_append_dropWhile
    split at h
    · cases h
    · next d after hd =>
      dsimp only at h
      split at h
      · cases h
      · next hne =>
        cases h
        have hhead := List.head?_dropWhile_not (· != '>') r
        rw [hd] at hhead hs
        obtain rfl : d = '>' := by simpa using hhead
        have ha : '>' ∉ r.takeWhile (· != '>') := by
          intro hm
          have := List.all_eq_true.mp List.all_takeWhile _ hm
          simp at this
        have hb : ∃ x ∈ after, isBlank x = false := by
          rw [trim_eq_nil_iff] at hne
          simpa using hne
        have hl := OptionLine.intro (c := c) ha hb
        rwa [hs] at hl
  · cases h

theorem optionLine?_eq_some_iff :
    optionLine? s = some (text, target) ↔ OptionLine s text target :=
  ⟨optionLine_of_optionLine?, optionLine?_of_optionLine⟩

theorem TagLine.head (h : TagLine s name body) : s.head? = some '[' := by
  cases h <;> rfl

theorem OptionLine.head (h : OptionLine s text target) : s.head? = some '*' := by
  cases h
  rfl

theorem TagLine.not_optionLine (h : TagLine s name body) : ¬ OptionLine s text target := by
  intro ho
  cases h.head.symm.trans ho.head

theorem tagLine?_eq_none_iff : tagLine? s = none ↔ ∀ name body, ¬ TagLine s name body := by
  simp only [Option.eq_none_iff_forall_ne_some, Prod.forall, ne_eq, tagLine?_eq_some_iff]

theorem optionLine?_eq_none_iff :
    optionLine? s = none ↔ ∀ text target, ¬ OptionLine s text target := by
  simp only [Option.eq_none_iff_forall_ne_some, Prod.forall, ne_eq, optionLine?_eq_some_iff]

theorem denotes_iff : Denotes s line ↔ kept s = true ∧ line = Line.classify s := by
  constructor
  · intro h
    cases h with
    | tag h =>
      obtain ⟨r, rfl⟩ := List.head?_eq_some_iff.mp h.head
      exact ⟨rfl, by rw [Line.classify, tagLine?_of_tagLine h]⟩
    | option h =>
      obtain ⟨r, rfl⟩ := List.head?_eq_some_iff.mp h.head
      have ht : tagLine? ('*' :: r) = none := rfl
      exact ⟨rfl, by rw [Line.classify, ht, optionLine?_of_optionLine h]⟩
    | prose hne hc ht ho =>
      obtain ⟨c, r, rfl⟩ := List.exists_cons_of_ne_nil hne
      refine ⟨?_, by rw [Line.classify, tagLine?_eq_none_iff.mpr ht, optionLine?_eq_none_iff.mpr ho]⟩
      rw [kept, bne_iff_ne]
      rintro rfl
      exact hc rfl
  · rintro ⟨hk, rfl⟩
    cases s with
    | nil => cases hk
    | cons c r =>
      rw [kept, bne_iff_ne] at hk
      rw [Line.classify]
      split
      · next ht => exact .tag (tagLine_of_tagLine? ht)
      · next ht =>
        split
        · next ho => exact .option (optionLine_of_optionLine? ho)
        · next ho =>
          refine .prose (List.cons_ne_nil c r) ?_ (tagLine?_eq_none_iff.mp ht)
            (optionLine?_eq_none_iff.mp ho)
          rintro ⟨⟩
          exact hk rfl

theorem ofText?_eq_some_iff : Line.ofText? s = some line ↔ Denotes (trim s) line := by
  rw [denotes_iff, Line.ofText?]
  cases trim s with
  | nil => simp [kept]
  | cons c r =>
    dsimp only
    rw [kept, bne_iff_ne]
    split
    · next hc => simp [hc]
    · next hc =>
      rw [Option.some.injEq, and_iff_right hc]
      exact eq_comm

end Line

theorem mem_numberedLines_iff {start number : Nat} {line : Line} {ss : List (List Char)} :
    (number, line) ∈ numberedLines start ss ↔
      ∃ i s, ss[i]? = some s ∧ number = start + i ∧ Line.ofText? s = some line := by
  induction ss generalizing start with
  | nil => simp [numberedLines]
  | cons s ss ih =>
    have hr : (∃ i s', (s :: ss)[i]? = some s' ∧ number = start + i ∧
        Line.ofText? s' = some line) ↔ (number = start ∧ Line.ofText? s = some line) ∨
          ∃ i s', ss[i]? = some s' ∧ number = start + 1 + i ∧ Line.ofText? s' = some line := by
      constructor
      · rintro ⟨i, s', hs, hn, hl⟩
        cases i with
        | zero =>
          cases hs
          exact .inl ⟨hn, hl⟩
        | succ i => exact .inr ⟨i, s', hs, by omega, hl⟩
      · rintro (⟨rfl, hl⟩ | ⟨i, s', hs, hn, hl⟩)
        · exact ⟨0, s, rfl, rfl, hl⟩
        · exact ⟨i + 1, s', hs, by omega, hl⟩
    rw [hr, ← ih, numberedLines]
    cases Line.ofText? s with
    | none => simp
    | some l => simp [eq_comm]

/-- An empty line at the end of a text does not count, and says nothing. -/
theorem numberedLines_lines (text : List Char) :
    numberedLines 1 (lines text) = numberedLines 1 (splitOn '\n' text) := by
  rw [lines]
  split
  · next h =>
    rw [numberedLines_eq, numberedLines_eq]
    conv_rhs => rw [← List.dropLast_append_getLast? _ h]
    rw [List.map_append, List.zipIdx_append, List.filterMap_append]
    exact (List.append_nil _).symm
  · rfl

theorem kept_trim_iff {raw : List Char} : kept (trim raw) = true ↔
    (∃ c ∈ raw, isBlank c = false) ∧ (trim raw).head? ≠ some '#' := by
  have hb : trim raw ≠ [] ↔ ∃ c ∈ raw, isBlank c = false := by
    simp [trim_eq_nil_iff]
  rw [← hb]
  cases trim raw <;> simp [kept]

theorem recognized (text : List Char) : Recognized text (recognize text) := by
  have hm : ∀ number line, (number, line) ∈ recognize text ↔
      ∃ breaks raw, LineAt text breaks raw ∧ number = breaks + 1 ∧ Denotes (trim raw) line := by
    intro number line
    simp only [recognize, numberedLines_lines, mem_numberedLines_iff, getElem?_splitOn_iff,
      ofText?_eq_some_iff, Nat.add_comm 1]
  refine ⟨ascending_numberedLines 1 _, hm, ?_⟩
  intro breaks raw hr
  rw [← kept_trim_iff]
  simp only [hm, denotes_iff]
  constructor
  · rintro ⟨line, breaks', raw', hr', hn, hk, _⟩
    obtain rfl : breaks = breaks' := Nat.succ.inj hn
    rw [← getElem?_splitOn_iff] at hr hr'
    cases hr.symm.trans hr'
    exact hk
  · intro hk
    exact ⟨_, breaks, raw, hr, rfl, hk, rfl⟩

/-- A line is a tag, or an option, just when it is written as one, and the others are prose. -/
theorem line_grammar :
    (∀ s, (∀ name body, tagLine? s = some (name, body) ↔ TagLine s name body) ∧
      (∀ text target, optionLine? s = some (text, target) ↔ OptionLine s text target) ∧
      (tagLine? s = none ∨ optionLine? s = none)) ∧
    ∀ text, Recognized text (recognize text) := by
  refine ⟨?_, recognized⟩
  intro s
  refine ⟨fun _ _ => tagLine?_eq_some_iff, fun _ _ => optionLine?_eq_some_iff, ?_⟩
  cases ht : tagLine? s with
  | none => exact .inl rfl
  | some found =>
    right
    rw [optionLine?_eq_none_iff]
    intro text target
    exact (tagLine_of_tagLine? ht).not_optionLine

end Script

end Dialogue
