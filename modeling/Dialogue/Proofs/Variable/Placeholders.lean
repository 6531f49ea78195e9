import Dialogue.Variable.Substitution
namespace Dialogue

/-- A text in pieces: characters that stand for themselves, and names between braces. -/
inductive Piece where
  | char (c : Char)
  | slot (name : List Char)
deriving DecidableEq, Repr

def Unbraced (name : List Char) : Prop :=
  '{' ∉ name ∧ '}' ∉ name

namespace Piece

def text : Piece → List Char
  | char c => [c]
  | slot name => '{' :: (name ++ ['}'])

/-- A piece with the value of its variable in its place, if the variable is defined. -/
def filled (s : Store) : Piece → List Char
  | char c => [c]
  | slot name =>
    match s.get? (String.ofList name) with
    | some value => value.text.toList
    | none => (slot name).text

theorem text_ne_nil (p : Piece) : p.text ≠ [] := by
  cases p <;> exact List.cons_ne_nil _ _

theorem text_slot_append (name rest : List Char) :
    (slot name).text ++ rest = '{' :: (name ++ '}' :: rest) := by
  rw [text, List.cons_append, List.append_assoc, List.singleton_append]

end Piece

/-- Each placeholder in the text is a piece, and nothing else is a piece of more than one character.
-/
structure Cut (text : List Char) (pieces : List Piece) : Prop where
  whole : pieces.flatMap Piece.text = text
  unbraced : ∀ name, .slot name ∈ pieces → Unbraced name
  placeholder : ∀ before name after, Unbraced name →
    text = before ++ (Piece.slot name).text ++ after →
      ∃ l r, pieces = l ++ .slot name :: r ∧ l.flatMap Piece.text = before ∧
        r.flatMap Piece.text = after

section Placeholder

variable {s name rest : List Char}

theorem placeholder?_append (h : Unbraced name) (rest : List Char) :
    placeholder? (name ++ '}' :: rest) = some (name, rest) := by
  induction name with
  | nil => rfl
  | cons c name ih =>
    obtain ⟨ho, hc⟩ := h
    rw [List.mem_cons, not_or] at ho hc
    rw [List.cons_append, placeholder?, if_neg (Ne.symm hc.1), if_neg (Ne.symm ho.1),
      ih ⟨ho.2, hc.2⟩, Option.map_some]

theorem unbraced_of_placeholder? (h : placeholder? s = some (name, rest)) : Unbraced name := by
  induction s generalizing name with
  | nil => cases h
  | cons c r ih =>
    rw [placeholder?] at h
    split at h
    · cases h
      exact ⟨List.not_mem_nil, List.not_mem_nil⟩
    · next hc =>
      split at h
      · cases h
      · next ho =>
        obtain ⟨p, hp, he⟩ := Option.map_eq_some_iff.mp h
        cases he
        obtain ⟨hpo, hpc⟩ := ih hp
        exact ⟨List.not_mem_cons_of_ne_of_not_mem (Ne.symm ho) hpo,
          List.not_mem_cons_of_ne_of_not_mem (Ne.symm hc) hpc⟩

theorem placeholder?_eq_some_iff :
    placeholder? s = some (name, rest) ↔ s = name ++ '}' :: rest ∧ Unbraced name := by
  constructor
  · intro h
    exact ⟨placeholder?_eq_append h, unbraced_of_placeholder? h⟩
  · rintro ⟨rfl, h⟩
    exact placeholder?_append h rest

theorem substituteWith_append {value : String → Option String} (h : '{' ∉ name)
    (rest : List Char) :
    substituteWith value (name ++ rest) = name ++ substituteWith value rest := by
  induction name with
  | nil => rfl
  | cons c name ih =>
    rw [List.mem_cons, not_or] at h
    rw [List.cons_append, substituteWith_cons_of_ne (Ne.symm h.1), ih h.2, List.cons_append]

theorem substituteWith_open {value : String → Option String} (h : placeholder? s = none) :
    substituteWith value ('{' :: s) = '{' :: substituteWith value s := by
  rw [substituteWith, if_pos rfl]
  split
  · next hp => cases h.symm.trans hp
  · rfl

/-- A placeholder is written with its value, or as it stands, and the text goes on behind it. -/
theorem substituteWith_slot {value : String → Option String} (h : Unbraced name)
    (rest : List Char) :
    substituteWith value ((Piece.slot name).text ++ rest) =
      (match value (String.ofList name) with
        | some text => text.toList
        | none => (Piece.slot name).text) ++ substituteWith value rest := by
  rw [Piece.text_slot_append, substituteWith, if_pos rfl]
  split
  · next name' rest' hp =>
    cases (placeholder?_append h rest).symm.trans hp
    cases value (String.ofList name) with
    | some text => rfl
    | none =>
      -- The code reads an unknown name once more; it finds no brace in it.
      have hc : '}' ≠ '{' := by decide
      simp only [substituteWith_append h.1, substituteWith_cons_of_ne hc,
        Piece.text_slot_append]
  · next hp => cases (placeholder?_append h rest).symm.trans hp

end Placeholder

namespace Cut

variable {text : List Char} {pieces : List Piece} {p : Piece} {c : Char} {name : List Char}

theorem nil : Cut [] [] where
  whole := rfl
  unbraced := nofun
  placeholder before name after _ h := by
    rw [Piece.text, List.append_assoc, List.cons_append] at h
    cases (List.append_eq_nil_iff.mp h.symm).2

theorem char_cons (h : Cut text pieces)
    (hc : c = '{' → placeholder? text = none) : Cut (c :: text) (.char c :: pieces) where
  whole := by
    rw [List.flatMap_cons, h.whole]
    rfl
  unbraced name hm := by
    rw [List.mem_cons] at hm
    rcases hm with hm | hm
    · cases hm
    · exact h.unbraced name hm
  placeholder before name after hn he := by
    cases before with
    | nil =>
      rw [List.nil_append, Piece.text, List.cons_append, List.append_assoc] at he
      injection he with hb ht
      rw [placeholder?_eq_some_iff.mpr ⟨ht, hn⟩] at hc
      cases hc hb
    | cons d before =>
      rw [List.cons_append, List.cons_append] at he
      injection he with hd ht
      obtain ⟨l, r, hp, hl, hr⟩ := h.placeholder before name after hn ht
      refine ⟨.char c :: l, r, ?_, ?_, hr⟩
      · rw [hp, List.cons_append]
      · rw [List.flatMap_cons, hl, hd]
        rfl

/-- No placeholder begins in the middle of another one. -/
theorem exists_of_slot {before : List Char} {w after : List Char} (hn : Unbraced name)
    (hb : before ≠ []) (he : (Piece.slot name).text ++ text = before ++ (Piece.slot w).text ++ after) :
    ∃ before', before = (Piece.slot name).text ++ before' ∧
      text = before' ++ (Piece.slot w).text ++ after := by
  rw [List.append_assoc] at he
  rcases List.append_eq_append_iff.mp he with ⟨u, hu, ht⟩ | ⟨u, hu, ht⟩
  · exact ⟨u, hu, by rw [ht, List.append_assoc]⟩
  · cases u with
    | nil => exact ⟨[], by rw [hu, List.append_nil, List.append_nil], ht.symm⟩
    | cons d u =>
      -- An opening brace would stand behind the first character of the piece.
      rw [Piece.text, List.cons_append] at ht
      injection ht with hd _
      subst hd
      obtain ⟨b, before, rfl⟩ := List.exists_cons_of_ne_nil hb
      rw [Piece.text, List.cons_append] at hu
      injection hu with _ hu
      have hm : '{' ∈ name ++ ['}'] := by
        rw [hu]
        exact List.mem_append_right _ List.mem_cons_self
      rw [List.mem_append] at hm
      rcases hm with hm | hm
      · exact absurd hm hn.1
      · exact absurd hm (by decide)

theorem slot_cons (h : Cut text pieces) (hn : Unbraced name) :
    Cut ((Piece.slot name).text ++ text) (.slot name :: pieces) where
  whole := by rw [List.flatMap_cons, h.whole]
  unbraced w hm := by
    rw [List.mem_cons] at hm
    rcases hm with hm | hm
    · cases hm
      exact hn
    · exact h.unbraced w hm
  placeholder before w after hw he := by
    by_cases hb : before = []
    · subst hb
      have hp := placeholder?_append hn text
      have hq := placeholder?_append hw after
      simp only [Piece.text, List.nil_append, List.cons_append, List.append_assoc,
        List.cons.injEq, true_and] at he
      rw [he, hq] at hp
      cases hp
      exact ⟨[], pieces, rfl, rfl, h.whole⟩
    · obtain ⟨before, rfl, ht⟩ := exists_of_slot hn hb he
      obtain ⟨l, r, hp, hl, hr⟩ := h.placeholder before w after hw ht
      refine ⟨.slot name :: l, r, ?_, ?_, hr⟩
      · rw [hp, List.cons_append]
      · rw [List.flatMap_cons, hl]

theorem tail (h : Cut (p.text ++ text) (p :: pieces)) : Cut text pieces where
  whole := by
    have hw := h.whole
    rw [List.flatMap_cons] at hw
    exact List.append_cancel_left hw
  unbraced name hm := h.unbraced name (List.mem_cons_of_mem p hm)
  placeholder before name after hn he := by
    obtain ⟨l, r, hp, hl, hr⟩ := h.placeholder (p.text ++ before) name after hn (by
      rw [he, List.append_assoc, List.append_assoc, List.append_assoc])
    cases l with
    | nil =>
      rw [List.flatMap_nil] at hl
      exact absurd (List.append_eq_nil_iff.mp hl.symm).1 p.text_ne_nil
    | cons q l =>
      rw [List.cons_append] at hp
      injection hp with hq hp
      subst hq
      rw [List.flatMap_cons] at hl
      exact ⟨l, r, hp, List.append_cancel_left hl, hr⟩

theorem eq_slot (h : Cut ((Piece.slot name).text ++ text) pieces) (hn : Unbraced name) :
    ∃ r, pieces = .slot name :: r := by
  obtain ⟨l, r, hp, hl, _⟩ := h.placeholder [] name text hn rfl
  cases l with
  | nil => exact ⟨r, hp⟩
  | cons q l =>
    rw [List.flatMap_cons] at hl
    exact absurd (List.append_eq_nil_iff.mp hl).1 q.text_ne_nil

theorem unique {others : List Piece} (h : Cut text pieces) (ho : Cut text others) :
    others = pieces := by
  induction pieces generalizing text others with
  | nil =>
    cases others with
    | nil => rfl
    | cons q others =>
      have hw := ho.whole
      rw [← h.whole, List.flatMap_cons] at hw
      exact absurd (List.append_eq_nil_iff.mp hw).1 q.text_ne_nil
  | cons p pieces ih =>
    have hw := h.whole
    rw [List.flatMap_cons] at hw
    rw [← hw] at h ho
    have hp : ∃ r, others = p :: r := by
      cases p with
      | slot name => exact ho.eq_slot (h.unbraced name List.mem_cons_self)
      | char c =>
        cases others with
        | nil => cases ho.whole
        | cons q others =>
          cases q with
          | char d =>
            injection ho.whole with hd _
            exact ⟨others, by rw [hd]⟩
          | slot name =>
            have hw' := ho.whole
            rw [List.flatMap_cons] at hw'
            rw [← hw'] at h
            obtain ⟨r, hr⟩ := h.eq_slot (ho.unbraced name List.mem_cons_self)
            cases hr
    obtain ⟨r, rfl⟩ := hp
    rw [ih h.tail ho.tail]

end Cut

def Piece.ofText (text : List Char) : List Piece :=
  match text with
  | [] => []
  | c :: r =>
    if c = '{' then
      match _h : placeholder? r with
      | some (name, rest) => .slot name :: ofText rest
      | none => .char c :: ofText r
    else .char c :: ofText r
termination_by text.length
decreasing_by
  all_goals simp only [List.length_cons]
  · rw [placeholder?_eq_append _h, List.length_append, List.length_cons]
    omega
  all_goals omega

theorem cut_ofText (text : List Char) : Cut text (Piece.ofText text) := by
  fun_induction Piece.ofText text with
  | case1 => exact .nil
  | case2 r name rest hp ih =>
    obtain ⟨rfl, hn⟩ := placeholder?_eq_some_iff.mp hp
    rw [← Piece.text_slot_append]
    exact ih.slot_cons hn
  | case3 r hp ih =>
    apply ih.char_cons
    intro _
    exact hp
  | case4 c r hc ih =>
    apply ih.char_cons
    intro ho
    exact absurd ho hc

theorem substituteWith_eq_filled (s : Store) (text : List Char) :
    substituteWith (fun name => (s.get? name).map Value.text) text =
      (Piece.ofText text).flatMap (Piece.filled s) := by
  fun_induction Piece.ofText text with
  | case1 => exact substituteWith_nil _
  | case2 r name rest hp ih =>
    obtain ⟨rfl, hn⟩ := placeholder?_eq_some_iff.mp hp
    rw [← Piece.text_slot_append, substituteWith_slot hn, List.flatMap_cons, ih, Piece.filled]
    cases s.get? (String.ofList name) <;> rfl
  | case3 r hp ih =>
    rw [substituteWith_open hp, List.flatMap_cons, ih]
    rfl
  | case4 c r hc ih =>
    rw [substituteWith_cons_of_ne hc, List.flatMap_cons, ih]
    rfl

/-- Substitution writes the values of the defined variables for their placeholders, and all else as
it stands. -/
theorem Store.substitute_pieces (text : String) :
    ∃ pieces, (∀ others, Cut text.toList others ↔ others = pieces) ∧
      ∀ s : Store, s.substitute text = String.ofList (pieces.flatMap (Piece.filled s)) := by
  refine ⟨Piece.ofText text.toList, ?_, ?_⟩
  · intro others
    constructor
    · intro ho
      exact (cut_ofText _).unique ho
    · rintro rfl
      exact cut_ofText _
  · intro s
    rw [substitute, substituteWith_eq_filled]

end Dialogue
