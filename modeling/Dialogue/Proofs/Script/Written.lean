import Dialogue.Proofs.Script.Inline
namespace Dialogue

namespace Script

def IsName (s : String) : Prop :=
  s.toList ≠ [] ∧ s.toList.all Text.isWord = true

instance (s : String) : Decidable (IsName s) :=
  inferInstanceAs (Decidable (_ ∧ _))

/-- Text that stands for itself between double quotes. -/
def Plain (s : String) : Prop :=
  '"' ∉ s.toList ∧ Inline s.toList

instance (s : String) : Decidable (Plain s) :=
  inferInstanceAs (Decidable (_ ∧ _))

end Script

def Entrance.name : Entrance → String
  | .left => "left"
  | .right => "right"
  | .bottomLeft => "bottomleft"
  | .bottomRight => "bottomright"
  | .center => "center"
  | .top => "top"

def Gesture.name : Gesture → String
  | .jump => "jump"
  | .shake => "shake"
  | .shakeHorizontal => "shakehorizontal"
  | .nod => "nod"
  | .punch => "punch"

theorem Entrance.ofName?_name (e : Entrance) : ofName? e.name = some e := by
  cases e <;> decide +kernel

theorem Entrance.isName_name (e : Entrance) : Script.IsName e.name := by
  cases e <;> decide +kernel

theorem Gesture.ofName?_name (g : Gesture) : ofName? g.name = some g := by
  cases g <;> decide +kernel

theorem Gesture.isName_name (g : Gesture) : Script.IsName g.name := by
  cases g <;> decide +kernel

namespace Script

/-- An attribute as it is written: with its value between double quotes, or by itself. -/
structure Attribute where
  name : String
  value : String
  quoted : Bool
deriving DecidableEq, Repr

namespace Attribute

def quote (name value : String) : Attribute :=
  ⟨name, value, true⟩

def word (name value : String) : Attribute :=
  ⟨name, value, false⟩

def text (a : Attribute) : List Char :=
  a.name.toList ++ '=' ::
    if a.quoted then '"' :: (a.value.toList ++ ['"']) else a.value.toList

def Sound (a : Attribute) : Prop :=
  IsName a.name ∧ if a.quoted then Plain a.value else IsName a.value

theorem Sound.text_cases {a : Attribute} (h : a.Sound) : IsName a.name ∧
    (Plain a.value ∧ a.text = a.name.toList ++ '=' :: '"' :: (a.value.toList ++ ['"']) ∨
      IsName a.value ∧ a.text = a.name.toList ++ '=' :: a.value.toList) := by
  obtain ⟨hn, hv⟩ := h
  refine ⟨hn, ?_⟩
  rw [text]
  cases hq : a.quoted with
  | true =>
    rw [hq, if_pos rfl] at hv
    exact .inl ⟨hv, rfl⟩
  | false =>
    rw [hq, if_neg Bool.false_ne_true] at hv
    exact .inr ⟨hv, rfl⟩

theorem Sound.quote {name value : String} (hn : IsName name) (hv : Plain value) :
    (Attribute.quote name value).Sound :=
  ⟨hn, hv⟩

theorem Sound.word {name value : String} (hn : IsName name) (hv : IsName value) :
    (Attribute.word name value).Sound :=
  ⟨hn, hv⟩

end Attribute

/-- Attributes with a space before each. -/
def spaced (as : List Attribute) : List Char :=
  as.flatMap fun a => ' ' :: a.text

@[simp] theorem spaced_nil : spaced [] = [] := rfl

@[simp] theorem spaced_cons (a : Attribute) (as : List Attribute) :
    spaced (a :: as) = ' ' :: (a.text ++ spaced as) := rfl

def tagText (name : String) (as : List Attribute) : List Char :=
  '[' :: (name.toList ++ spaced as ++ [']'])

def optionText (o : ChoiceOption) : List Char :=
  '*' :: ' ' :: (o.text.toList ++ ' ' :: '>' :: ' ' :: o.target.toList)

/-- Marks of the syntax, none of which is part of a name. -/
def marks : List Char :=
  [' ', '\t', ']', '=', '"', '\x27', '<', '\r', '\n']

theorem all_marks : marks.all (fun c => !Text.isWord c) = true := by
  decide +kernel

theorem isWord_mark {c : Char} (h : c ∈ marks) : Text.isWord c = false := by
  simpa using List.all_eq_true.mp all_marks c h

theorem ne_of_isWord {c d : Char} (hc : Text.isWord c = true) (hd : d ∈ marks) : c ≠ d := by
  rintro rfl
  rw [isWord_mark hd] at hc
  cases hc

theorem IsName.isWord {s : String} (h : IsName s) : ∀ c ∈ s.toList, Text.isWord c = true :=
  List.all_eq_true.mp h.2

theorem IsName.inline {s : String} (h : IsName s) : Inline s.toList := by
  refine .of_forall fun c hc hm => ?_
  have hne {d : Char} := ne_of_isWord (d := d) (h.isWord c hc)
  simp only [List.mem_cons, List.not_mem_nil, or_false] at hm
  rcases hm with rfl | rfl | rfl <;> exact hne (by decide) rfl

section Scan

variable {name v r : List Char}

theorem attribute?_eq (hne : name ≠ []) (hn : ∀ c ∈ name, Text.isWord c = true) :
    attribute? (name ++ '=' :: r) = (value? r).map fun v => ⟨name, v.1, v.2⟩ := by
  have hr : ∀ c ∈ ('=' :: r).head?, Text.isWord c = false := by
    rintro c ⟨⟩
    exact isWord_mark (by decide)
  obtain ⟨ht, hd⟩ := Text.span_append hn hr
  simp only [attribute?, ht, hd, if_neg hne]

theorem value?_quoted (h : '"' ∉ v) : value? ('"' :: (v ++ '"' :: r)) = some (v, r) := by
  have hv : ∀ c ∈ v, (c != '"') = true := by
    intro c hc
    rw [bne_iff_ne]
    rintro rfl
    exact h hc
  obtain ⟨ht, hd⟩ := Text.span_append (r := '"' :: r) hv (by rintro c ⟨⟩; rfl)
  have hq : quoted? ('"' :: (v ++ '"' :: r)) = some (v, r) := by
    rw [quoted?, if_pos (by simp), ht, hd, List.tail_cons]
  rw [value?, hq, Option.some_or]

theorem value?_bare (hne : v ≠ []) (hv : ∀ c ∈ v, Text.isWord c = true)
    (hr : ∀ c ∈ r.head?, c = ' ') : value? (v ++ r) = some (v, r) := by
  have hq : quoted? (v ++ r) = none := by
    obtain ⟨c, v, rfl⟩ := List.exists_cons_of_ne_nil hne
    have hc {d : Char} := ne_of_isWord (d := d) (hv c List.mem_cons_self)
    rw [List.cons_append, quoted?, if_neg]
    rintro ⟨h | h, _⟩
    · exact hc (by decide) h
    · exact hc (by decide) h
  have hb : ∀ c ∈ v, (!endsBare c) = true := by
    intro c hc
    have hne {d : Char} := ne_of_isWord (d := d) (hv c hc)
    simp only [endsBare, Bool.not_eq_true', Bool.or_eq_false_iff, beq_eq_false_iff_ne]
    exact ⟨⟨hne (by decide), hne (by decide)⟩, hne (by decide)⟩
  have he : ∀ c ∈ r.head?, (!endsBare c) = false := by
    intro c hc
    rw [hr c hc]
    rfl
  obtain ⟨ht, hd⟩ := Text.span_append hb he
  rw [value?, hq, Option.none_or, bare?, ht, if_neg hne, hd]

end Scan

section Attributes

variable {a : Attribute} {as : List Attribute}

theorem spaced_head (as : List Attribute) : ∀ c ∈ (spaced as).head?, c = ' ' := by
  cases as with
  | nil => nofun
  | cons a as =>
    rintro c ⟨⟩
    rfl

theorem attribute?_text (h : a.Sound) (as : List Attribute) : attribute? (a.text ++ spaced as) =
    some ⟨a.name.toList, a.value.toList, spaced as⟩ := by
  obtain ⟨hn, ⟨hv, ht⟩ | ⟨hv, ht⟩⟩ := h.text_cases
  · rw [ht, List.append_assoc, List.cons_append, attribute?_eq hn.1 hn.isWord, List.cons_append,
      List.append_assoc, List.singleton_append, value?_quoted hv.1, Option.map_some]
  · rw [ht, List.append_assoc, List.cons_append, attribute?_eq hn.1 hn.isWord,
      value?_bare hv.1 hv.isWord (spaced_head as), Option.map_some]

theorem attributes_space (s : List Char) : attributes (' ' :: s) = attributes s := by
  refine attributes_of_no_match ?_
  have hw : Text.isWord ' ' = false := isWord_mark (by decide)
  rw [attribute?, List.takeWhile_cons_of_neg (Bool.eq_false_iff.mp hw)]
  rfl

theorem attributes_spaced (h : ∀ a ∈ as, a.Sound) :
    attributes (spaced as) = as.map fun a => (a.name, a.value) := by
  induction as with
  | nil => exact attributes_nil
  | cons a as ih =>
    obtain ⟨ha, has⟩ := List.forall_mem_cons.mp h
    rw [spaced_cons, attributes_space, attributes_of_match (attribute?_text ha as), ih has,
      String.ofList_toList, String.ofList_toList, List.map_cons]

theorem Attribute.Sound.text_head (h : a.Sound) :
    ∃ c s, a.text = c :: s ∧ Text.isBlank c = false := by
  obtain ⟨hn, _⟩ := h
  obtain ⟨c, s, hs⟩ := List.exists_cons_of_ne_nil hn.1
  rw [Attribute.text, hs]
  exact ⟨c, _, rfl, Text.not_isBlank_of_isWord (hn.isWord c (hs ▸ List.mem_cons_self))⟩

theorem Attribute.Sound.text_last (h : a.Sound) :
    ∃ s c, a.text = s ++ [c] ∧ Text.isBlank c = false := by
  obtain ⟨_, ⟨_, ht⟩ | ⟨hv, ht⟩⟩ := h.text_cases
  · refine ⟨a.name.toList ++ '=' :: '"' :: a.value.toList, '"', ?_, by decide⟩
    simp [ht]
  · obtain ⟨s, c, hs⟩ := (List.eq_nil_or_concat a.value.toList).resolve_left hv.1
    refine ⟨a.name.toList ++ '=' :: s, c, ?_, ?_⟩
    · simp [ht, hs]
    · exact Text.not_isBlank_of_isWord (hv.isWord c (by simp [hs]))

theorem text_spaced_last (h : ∀ b ∈ a :: as, b.Sound) :
    ∃ s c, a.text ++ spaced as = s ++ [c] ∧ Text.isBlank c = false := by
  induction as generalizing a with
  | nil =>
    rw [spaced_nil, List.append_nil]
    exact (h a List.mem_cons_self).text_last
  | cons b as ih =>
    obtain ⟨s, c, hs, hc⟩ := ih (List.forall_mem_cons.mp h).2
    refine ⟨a.text ++ ' ' :: s, c, ?_, hc⟩
    rw [spaced_cons, hs, List.append_assoc, List.cons_append]

theorem trim_spaced (h : ∀ b ∈ a :: as, b.Sound) :
    Text.trim (spaced (a :: as)) = a.text ++ spaced as := by
  obtain ⟨c, t, ht, hc⟩ := (h a List.mem_cons_self).text_head
  obtain ⟨s, d, hs, hd⟩ := text_spaced_last h
  rw [spaced_cons, Text.trim_cons_blank _ (by decide), Text.trim]
  have hstart : Text.trimStart (a.text ++ spaced as) = a.text ++ spaced as := by
    rw [ht, List.cons_append, Text.trimStart_eq_self hc]
  rw [hstart, hs, Text.trimEnd_append_eq_self hd]

end Attributes

def body? : List Attribute → Option (List Char)
  | [] => none
  | a :: as => some (a.text ++ spaced as)

section Lines

variable {name : String} {as : List Attribute} {o : ChoiceOption}

theorem tagLine?_tagText (hn : IsName name) (h : ∀ a ∈ as, a.Sound) :
    tagLine? (tagText name as) = some (name.toList, body? as) := by
  have hb : bracketed? (tagText name as) = some (name.toList ++ spaced as) := by
    rw [tagText, bracketed?, List.getLast?_concat, if_pos rfl, List.dropLast_concat]
  have hs : ∀ c ∈ (spaced as).head?, Text.isWord c = false := by
    intro c hc
    rw [spaced_head as c hc]
    exact isWord_mark (by decide)
  obtain ⟨ht, hd⟩ := Text.span_append hn.isWord hs
  rw [tagLine?, hb, Option.bind_some]
  simp only [ht, hd, if_neg hn.1]
  cases as with
  | nil => rfl
  | cons a as =>
    rw [body?, ← trim_spaced h, spaced_cons]
    exact if_pos (by decide)

theorem params_ofLine (h : ∀ a ∈ as, a.Sound) (hd : (as.map Attribute.name).Nodup) :
    (Tag.ofLine name ((body? as).map String.ofList)).params.entries =
      as.map fun a => (a.name, a.value) := by
  cases as with
  | nil => rfl
  | cons a as =>
    have he : '=' ∈ a.text ++ spaced as := by simp [Attribute.text]
    have hp : (((a :: as).map fun a => (a.name, a.value)).map Prod.fst).Nodup := by
      rwa [List.map_map]
    have ha : attributes (a.text ++ spaced as) = (a :: as).map fun a => (a.name, a.value) := by
      rw [← attributes_space, ← spaced_cons, attributes_spaced h]
    rw [body?, Option.map_some, Tag.ofLine]
    simp only [String.toList_ofList, if_pos he, ha]
    exact Table.entries_ofList hp

theorem ofText?_cons {c : Char} {s : List Char} (hs : Text.trim (c :: s) = c :: s)
    (hc : c ≠ '#') : Line.ofText? (c :: s) = some (.classify (c :: s)) := by
  simp only [Line.ofText?, hs, if_neg hc]

theorem ofText?_tagText (hn : IsName name) (h : ∀ a ∈ as, a.Sound) :
    Line.ofText? (tagText name as) = some (.tag name ((body? as).map String.ofList)) := by
  have ht : Text.trim (tagText name as) = tagText name as :=
    Text.trim_eq_self _ (by decide) (by decide)
  rw [tagText, ofText?_cons ht (by decide), ← tagText, Line.classify]
  simp only [tagLine?_tagText hn h, String.ofList_toList]

/-- Options whose text and label survive on a line of their own. -/
@[mk_iff]
structure Listed (o : ChoiceOption) : Prop where
  text : Plain o.text
  target : Plain o.target
  trimmed_text : Text.trim o.text.toList = o.text.toList
  trimmed_target : Text.trim o.target.toList = o.target.toList
  arrow : '>' ∉ o.text.toList
  target_ne : o.target.toList ≠ []

instance (o : ChoiceOption) : Decidable (Listed o) :=
  decidable_of_iff _ (listed_iff o).symm

theorem optionLine?_optionText (h : Listed o) :
    optionLine? (optionText o) = some (o.text.toList, o.target.toList) := by
  have ht : ∀ c ∈ o.text.toList ++ [' '], (c != '>') = true := by
    intro c hc
    rw [bne_iff_ne]
    rintro rfl
    rcases List.mem_append.mp hc with hc | hc
    · exact h.arrow hc
    · exact absurd hc (by decide)
  obtain ⟨hw, hd⟩ := Text.span_append (r := '>' :: ' ' :: o.target.toList) ht (by rintro c ⟨⟩; rfl)
  rw [List.append_assoc, List.singleton_append] at hw hd
  simp only [optionText, optionLine?, hw, hd]
  rw [Text.trim_cons_blank _ (by decide), Text.trim_cons_blank _ (by decide),
    Text.trim_append_blank _ (by decide), h.trimmed_text, h.trimmed_target, if_neg h.target_ne]

theorem trim_optionText (h : Listed o) : Text.trim (optionText o) = optionText o := by
  obtain ⟨t, d, ht, hd⟩ := Text.trim_ends (h.trimmed_target.symm ▸ h.target_ne)
  rw [h.trimmed_target] at ht
  have he : optionText o = '*' :: ((' ' :: (o.text.toList ++ ' ' :: '>' :: ' ' :: t)) ++ [d]) := by
    simp [optionText, ht]
  rw [he, Text.trim_eq_self _ (by decide) hd]

theorem ofText?_optionText (h : Listed o) :
    Line.ofText? (optionText o) = some (.option o.text o.target) := by
  have ht : tagLine? (optionText o) = none := rfl
  rw [optionText, ofText?_cons (trim_optionText h) (by decide), ← optionText, Line.classify]
  simp only [ht, optionLine?_optionText h, String.ofList_toList]

theorem Attribute.Sound.inline_text {a : Attribute} (h : a.Sound) : Inline a.text := by
  obtain ⟨hn, ⟨hv, ht⟩ | ⟨hv, ht⟩⟩ := h.text_cases
  · have hq : Inline ('"' :: (a.value.toList ++ ['"'])) :=
      Inline.nil.append_cons (hv.2.append_cons .nil (by decide)) (by decide)
    rw [ht]
    exact hn.inline.append_cons hq (by decide)
  · rw [ht]
    exact hn.inline.append_cons hv.inline (by decide)

theorem Inline.append_spaced {s : List Char} (hs : Inline s) (h : ∀ a ∈ as, a.Sound) :
    Inline (s ++ spaced as) := by
  induction as generalizing s with
  | nil => rwa [spaced_nil, List.append_nil]
  | cons a as ih =>
    obtain ⟨ha, has⟩ := List.forall_mem_cons.mp h
    have hsa : Inline (s ++ ' ' :: a.text) := hs.append_cons ha.inline_text (by decide)
    rw [spaced_cons, ← List.cons_append, ← List.append_assoc]
    exact ih hsa has

theorem inline_tagText (hn : IsName name) (h : ∀ a ∈ as, a.Sound) : Inline (tagText name as) :=
  have hb : Inline (name.toList ++ spaced as) := hn.inline.append_spaced h
  Inline.nil.append_cons (hb.append_cons .nil (by decide)) (by decide)

theorem inline_optionText (h : Listed o) : Inline (optionText o) := by
  have hs : Inline ['*'] := .of_forall (List.forall_mem_singleton.mpr (by decide))
  have ha : Inline ['>'] := .of_forall (List.forall_mem_singleton.mpr (by decide))
  have ht : Inline ('>' :: ' ' :: o.target.toList) := ha.append_cons h.target.2 (by decide)
  have ho : Inline (o.text.toList ++ ' ' :: '>' :: ' ' :: o.target.toList) :=
    h.text.2.append_cons ht (by decide)
  exact hs.append_cons ho (by decide)

end Lines

end Script

end Dialogue
