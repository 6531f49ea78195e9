import Dialogue.Script.Parser
namespace Dialogue

open Script

theorem Script.Tag.options_eq_nil {tag : Tag} {options : List ChoiceOption}
    (h : tag.action = .choices options) : options = [] := by
  unfold action interpret without toUnknown at h
  grind

namespace Parser.Draft

/-- The open choice, if there is one, is among the actions. -/
def Sound (d : Draft) : Prop :=
  ∀ i, d.parser.openChoice = some i → ∃ options, d.actions[i]? = some (.choices options)

/-- The actions so far once the open choice has taken the options that follow. -/
def fill (d : Draft) (options : List ChoiceOption) : List Action :=
  match d.openOptions? with
  | some (i, earlier) => d.actions.set i (.choices (earlier ++ options))
  | none => d.actions

/-- What the rest of the lines makes of a draft. -/
structure Completes (d : Draft) (ls : List (Nat × Line)) (r : Draft) : Prop where
  warnings : r.parser.warnings =
    d.parser.warnings ++ warningsFrom d.parser.seen d.openOptions?.isSome ls
  actions : r.actions = d.fill (assemble ls).2 ++ (assemble ls).1.map Prod.snd
  lines : r.lines = d.lines ++ (assemble ls).1.map Prod.fst

variable {d r : Draft} {ls : List (Nat × Line)} {line i : Nat} {a : Action}
  {options : List ChoiceOption}

theorem openOptions?_of_none (h : d.parser.openChoice = none) : d.openOptions? = none := by
  rw [openOptions?, h]
  rfl

theorem openOptions?_of_some (h : d.parser.openChoice = some i)
    (ha : d.actions[i]? = some (.choices options)) : d.openOptions? = some (i, options) := by
  simp only [openOptions?, h, ha, Option.bind_some]

theorem actions_of_openOptions? (h : d.openOptions? = some (i, options)) :
    d.parser.openChoice = some i ∧ d.actions[i]? = some (.choices options) := by
  obtain ⟨j, hj, hm⟩ := Option.bind_eq_some_iff.mp h
  split at hm
  · next earlier ha =>
    cases hm
    exact ⟨hj, ha⟩
  · cases hm

theorem Sound.cases (h : d.Sound) : d.openOptions? = none ∧ d.parser.openChoice = none ∨
    ∃ i options, d.openOptions? = some (i, options) := by
  cases hc : d.parser.openChoice with
  | none => exact .inl ⟨openOptions?_of_none hc, rfl⟩
  | some i =>
    obtain ⟨options, ha⟩ := h i hc
    exact .inr ⟨i, options, openOptions?_of_some hc ha⟩

theorem fill_of_none (h : d.openOptions? = none) (options : List ChoiceOption) :
    d.fill options = d.actions := by
  rw [fill, h]

theorem fill_of_some {earlier : List ChoiceOption} (h : d.openOptions? = some (i, earlier))
    (options : List ChoiceOption) :
    d.fill options = d.actions.set i (.choices (earlier ++ options)) := by
  rw [fill, h]

theorem fill_nil (d : Draft) : d.fill [] = d.actions := by
  cases h : d.openOptions? with
  | none => exact fill_of_none h []
  | some p =>
    obtain ⟨hi, ha⟩ := List.getElem?_eq_some_iff.mp (actions_of_openOptions? h).2
    rw [fill_of_some h, List.append_nil, ← ha]
    exact List.set_getElem_self hi

theorem Sound.openOptions?_add (h : d.Sound) (line : Nat) (a : Action) :
    (d.add line a).openOptions? = d.openOptions? := by
  rcases h.cases with ⟨hn, hc⟩ | ⟨i, options, hs⟩
  · rw [hn]
    exact openOptions?_of_none hc
  · obtain ⟨hc, ha⟩ := actions_of_openOptions? hs
    rw [hs]
    refine openOptions?_of_some hc ?_
    rw [add, List.getElem?_append_left (List.getElem?_eq_some_iff.mp ha).1, ha]

theorem Sound.fill_add (h : d.Sound) (line : Nat) (a : Action) (options : List ChoiceOption) :
    (d.add line a).fill options = d.fill options ++ [a] := by
  rcases h.cases with ⟨hn, _⟩ | ⟨i, earlier, hs⟩
  · rw [fill_of_none hn, fill_of_none ((h.openOptions?_add line a).trans hn), add]
  · obtain ⟨hi, _⟩ := List.getElem?_eq_some_iff.mp (actions_of_openOptions? hs).2
    rw [fill_of_some hs, fill_of_some ((h.openOptions?_add line a).trans hs), add]
    exact List.set_append_left _ _ hi

theorem Sound.add (h : d.Sound) (line : Nat) (a : Action) : (d.add line a).Sound := by
  intro i hc
  obtain ⟨options, ha⟩ := h i hc
  refine ⟨options, ?_⟩
  rw [Draft.add, List.getElem?_append_left (List.getElem?_eq_some_iff.mp ha).1, ha]

def noted (d : Draft) (ws : List Warning) (seen : List String) : Draft :=
  { d with parser := { d.parser with warnings := d.parser.warnings ++ ws, seen := seen } }

theorem Sound.noted (h : d.Sound) (ws : List Warning) (seen : List String) :
    (d.noted ws seen).Sound := h

theorem Sound.completes_noted (h : d.Sound) {l : Line} (ws : List Warning) (seen : List String)
    (hr : Completes ((d.noted ws seen).add line a) ls r)
    (ha : assemble ((line, l) :: ls) = ((line, a) :: (assemble ls).1, (assemble ls).2))
    (hw : warningsFrom d.parser.seen d.openOptions?.isSome ((line, l) :: ls) =
      ws ++ warningsFrom seen d.openOptions?.isSome ls) :
    Completes d ((line, l) :: ls) r where
  warnings := by
    rw [hr.warnings, (h.noted ws seen).openOptions?_add, hw, ← List.append_assoc]
    rfl
  actions := by
    rw [hr.actions, (h.noted ws seen).fill_add, ha, List.append_assoc]
    rfl
  lines := by
    rw [hr.lines, ha, Draft.add, List.append_assoc]
    rfl

theorem Sound.completes_prose (h : d.Sound) {content : String}
    (hr : Completes (d.take (line, .prose content)) ls r) :
    Completes d ((line, .prose content) :: ls) r := by
  refine h.completes_noted [] d.parser.seen (a := .message content) ?_ rfl rfl
  rw [Draft.noted, List.append_nil]
  exact hr

theorem Sound.completes_option (h : d.Sound) {text target : String}
    (hr : Completes (d.take (line, .option text target)) ls r) :
    Completes d ((line, .option text target) :: ls) r := by
  rw [take, takeOption] at hr
  rcases h.cases with ⟨hn, hc⟩ | ⟨i, earlier, hs⟩
  · rw [hn] at hr
    have hn' : (d.warn [.strayOption line text target]).openOptions? = none :=
      openOptions?_of_none hc
    constructor
    · rw [hr.warnings, hn', hn, warn, List.append_assoc]
      rfl
    · rw [hr.actions, fill_of_none hn', fill_of_none hn]
      rfl
    · rw [hr.lines]
      rfl
  · rw [hs] at hr
    dsimp only at hr
    obtain ⟨hc, ha⟩ := actions_of_openOptions? hs
    obtain ⟨hi, _⟩ := List.getElem?_eq_some_iff.mp ha
    have hs' : (d.setOptions i (earlier ++ [⟨text, target⟩])).openOptions? =
        some (i, earlier ++ [⟨text, target⟩]) :=
      openOptions?_of_some hc (List.getElem?_set_self hi)
    constructor
    · rw [hr.warnings, hs', hs]
      rfl
    · rw [hr.actions, fill_of_some hs', fill_of_some hs, setOptions, List.set_set,
        List.append_assoc]
      rfl
    · rw [hr.lines]
      rfl

theorem Sound.completes_tag (h : d.Sound) {name : String} {body : Option String}
    (hr : Completes (d.take (line, .tag name body)) ls r) :
    Completes d ((line, .tag name body) :: ls) r := by
  rw [take, takeTag] at hr
  generalize ht : Tag.ofLine name body = tag at hr
  cases ha : tag.action with
  | label l =>
    rw [ha] at hr
    refine h.completes_noted (a := .label l)
      (tag.defects.map (.tag line tag.name) ++
        if l ∈ d.parser.seen then [.repeatedLabel line l] else [])
      (l :: d.parser.seen) ?_ ?_ ?_
    · rw [Draft.noted, ← List.append_assoc]
      rw [note, warn] at hr
      by_cases hl : l ∈ d.parser.seen
      · rw [if_pos hl] at hr ⊢
        exact hr
      · rw [if_neg hl] at hr ⊢
        rw [List.append_nil]
        exact hr
    · simp only [assemble, ht, ha]
    · simp only [warningsFrom, ht, ha, List.append_assoc]
  | choices options =>
    obtain rfl := Tag.options_eq_nil ha
    rw [ha] at hr
    have hs : (((d.warn (tag.defects.map (.tag line tag.name))).note line (.choices [])).add line
        (.choices [])).openOptions? = some (d.actions.length, []) :=
      openOptions?_of_some rfl List.getElem?_concat_length
    constructor
    · rw [hr.warnings, hs]
      simp only [warningsFrom, ht, ha, ← List.append_assoc]
      rfl
    · rw [hr.actions, fill_of_some hs]
      simp only [assemble, ht, ha, fill_nil]
      have hd : (((d.warn (tag.defects.map (.tag line tag.name))).note line (.choices [])).add line
          (.choices [])).actions = d.actions ++ [.choices []] := rfl
      rw [hd, List.set_append_right _ _ (Nat.le_refl _), Nat.sub_self, List.append_assoc]
      rfl
    · rw [hr.lines]
      simp only [assemble, ht, ha]
      exact List.append_assoc ..
  | _ =>
    rw [ha] at hr
    refine h.completes_noted (tag.defects.map (.tag line tag.name)) d.parser.seen hr ?_ ?_
    · simp only [assemble, ht, ha]
    · simp only [warningsFrom, ht, ha]

theorem Sound.completes (h : d.Sound) {l : Nat × Line} (hr : Completes (d.take l) ls r) :
    Completes d (l :: ls) r := by
  obtain ⟨line, l⟩ := l
  cases l with
  | tag name body => exact h.completes_tag hr
  | option text target => exact h.completes_option hr
  | prose content => exact h.completes_prose hr

theorem Sound.note (h : d.Sound) (line : Nat) (a : Action) :
    ((d.note line a).add line a).Sound := by
  cases a with
  | choices options =>
    intro i hc
    cases hc
    exact ⟨options, List.getElem?_concat_length⟩
  | label name =>
    refine Sound.add (d := d.note line (.label name)) ?_ line _
    rw [Draft.note]
    split <;> exact h
  | _ => exact h.add line _

theorem sound_setOptions (hs : d.openOptions? = some (i, options))
    (more : List ChoiceOption) : (d.setOptions i more).Sound := by
  obtain ⟨hc, ha⟩ := actions_of_openOptions? hs
  obtain ⟨hi, _⟩ := List.getElem?_eq_some_iff.mp ha
  intro j hj
  cases hc.symm.trans hj
  exact ⟨more, List.getElem?_set_self hi⟩

theorem Sound.take (h : d.Sound) (l : Nat × Line) : (d.take l).Sound := by
  obtain ⟨line, l⟩ := l
  cases l with
  | tag name body => exact Sound.note (d := d.warn _) h line _
  | prose content => exact h.add line _
  | option text target =>
    rw [Draft.take, takeOption]
    split
    · next i options hs => exact sound_setOptions hs _
    · exact h

theorem Sound.foldl_take (h : d.Sound) (ls : List (Nat × Line)) :
    Completes d ls (ls.foldl Draft.take d) := by
  induction ls generalizing d with
  | nil =>
    constructor
    · exact (List.append_nil _).symm
    · rw [assemble, fill_nil]
      exact (List.append_nil _).symm
    · exact (List.append_nil _).symm
  | cons l ls ih => exact h.completes (ih (h.take l))

end Parser.Draft

namespace Parser

/-- Whatever a parser has read before, it reads a text as it stands. -/
theorem parse_eq (q : Parser) (id text : String) : (q.parse id text).2 = .parse id text ∧
    (q.parse id text).1.warnings = Program.warnings text := by
  have h := Draft.Sound.foldl_take (d := ⟨q.reset, [], []⟩) nofun (linesOf text)
  have hn : (Draft.mk q.reset [] []).openOptions? = none := rfl
  constructor
  · rw [parse, h.actions, h.lines, Draft.fill_of_none hn]
    rfl
  · rw [parse, h.warnings, hn]
    rfl

end Parser

end Dialogue
