import Dialogue.Proofs.Script.Assembly
import Mathlib.Data.List.Nodup
namespace Dialogue

namespace Script

/-- Whether a line says something; here and below it comes without the white space around it. -/
def kept : List Char → Bool
  | [] => false
  | c :: _ => c != '#'

def optionOn? (s : List Char) : Option ChoiceOption :=
  if kept s && (tagLine? s).isNone then
    (optionLine? s).map fun o => ⟨String.ofList o.1, String.ofList o.2⟩
  else none

def acts (s : List Char) : Bool :=
  kept s && (optionOn? s).isNone

/-- The action that a line becomes, by itself: what is no tag is a message. -/
def actionOn (s : List Char) : Action :=
  match tagLine? s with
  | some (name, body) => (Tag.ofLine (String.ofList name) (body.map String.ofList)).action
  | none => .message (String.ofList s)

/-- The lines of a text without the white space around them, with their numbers from one. -/
def trimmedLines (text : String) : List (List Char × Nat) :=
  ((Text.lines (normalize text).toList).map Text.trim).zipIdx 1

/-- How the actions, their line numbers and the warnings come from the lines of a text. -/
structure Outline (text : String) (p : Program) (ws : List Warning) : Prop where
  actions : p.actions.map Action.bare =
    ((trimmedLines text).filter fun l => acts l.1).map fun l => actionOn l.1
  lines : p.lines = ((trimmedLines text).filter fun l => acts l.1).map Prod.snd
  aligned : p.lines.length = p.actions.length
  ascending : p.lines.Pairwise (· < ·)
  options : ∀ options n, (n, .choices options) ∈ p.lines.zip p.actions →
    options = ((trimmedLines text).filter fun l =>
      under (choiceLines (p.lines.zip p.actions)) n l.2).filterMap fun l => optionOn? l.1
  stray : ∀ l ∈ trimmedLines text, ∀ o, optionOn? l.1 = some o →
    beforeAll (choiceLines (p.lines.zip p.actions)) l.2 = true →
      ws.filter (fun w => w.line = l.2) = [.strayOption l.2 o.text o.target] ∧ l.2 ∉ p.lines

def numberedLine? (l : List Char × Nat) : Option (Nat × Line) :=
  if kept l.1 then some (l.2, Line.classify l.1) else none

theorem numberedLines_eq (start : Nat) (ss : List (List Char)) :
    numberedLines start ss = ((ss.map Text.trim).zipIdx start).filterMap numberedLine? := by
  induction ss generalizing start with
  | nil => rfl
  | cons s ss ih =>
    rw [List.map_cons, List.zipIdx_cons, List.filterMap_cons, numberedLines, Line.ofText?, ih]
    cases Text.trim s with
    | nil => rfl
    | cons c r => by_cases h : c = '#' <;> simp [numberedLine?, kept, h]

theorem action?_classify (s : List Char) :
    (if kept s then (Line.classify s).action? else none) =
      if acts s then some (actionOn s) else none := by
  rw [acts, optionOn?, actionOn, Line.classify]
  cases kept s with
  | false => rfl
  | true =>
    rcases tagLine? s with _ | ⟨name, body⟩
    · rcases optionLine? s with _ | ⟨text, target⟩ <;> rfl
    · rfl

theorem option?_classify (s : List Char) :
    (if kept s then (Line.classify s).option? else none) = optionOn? s := by
  rw [optionOn?, Line.classify]
  cases kept s with
  | false => rfl
  | true =>
    rcases tagLine? s with _ | ⟨name, body⟩
    · rcases optionLine? s with _ | ⟨text, target⟩ <;> rfl
    · rfl

section Numbered

variable (ts : List (List Char × Nat))

theorem actions_numbered :
    ((ts.filterMap numberedLine?).filterMap fun l => l.2.action?.map fun a => (l.1, a)) =
      (ts.filter fun l => acts l.1).map fun l => (l.2, actionOn l.1) := by
  rw [List.filterMap_filterMap, ← List.filterMap_eq_map, List.filterMap_filter]
  congr 1
  funext l
  obtain ⟨s, n⟩ := l
  have h := action?_classify s
  dsimp only [numberedLine?, Function.comp_apply]
  cases hk : kept s with
  | false =>
    rw [acts, hk]
    rfl
  | true =>
    rw [hk, if_pos rfl] at h
    rw [if_pos rfl, Option.bind_some, h]
    cases acts s <;> rfl

theorem optionsAt_numbered (keep : Nat → Bool) : optionsAt keep (ts.filterMap numberedLine?) =
    (ts.filter fun l => keep l.2).filterMap fun l => optionOn? l.1 := by
  rw [optionsAt, List.filterMap_filter, List.filterMap_filterMap, List.filterMap_filter]
  congr 1
  funext l
  obtain ⟨s, n⟩ := l
  have h := option?_classify s
  dsimp only [numberedLine?]
  rw [← h]
  cases kept s with
  | false => cases keep n <;> rfl
  | true => rw [if_pos rfl, if_pos rfl, Option.bind_some]

end Numbered

theorem ascending_trimmedLines (text : String) :
    (trimmedLines text).Pairwise fun x y => x.2 < y.2 := by
  rw [← List.pairwise_map, trimmedLines, List.zipIdx_map_snd]
  exact List.pairwise_lt_range' 1

theorem linesOf_eq (text : String) :
    linesOf text = (trimmedLines text).filterMap numberedLine? := by
  rw [linesOf, recognize, numberedLines_eq, trimmedLines, normalize, String.toList_ofList]

theorem ascending_numberedLines (start : Nat) (ss : List (List Char)) :
    (numberedLines start ss).Pairwise fun x y => x.1 < y.1 := by
  have hs : ((ss.map Text.trim).zipIdx start).Pairwise fun x y => x.2 < y.2 := by
    rw [← List.pairwise_map, List.zipIdx_map_snd]
    exact List.pairwise_lt_range' 1
  rw [numberedLines_eq]
  refine List.Pairwise.filterMap _ ?_ hs
  intro l m hlm x hx y hy
  rw [numberedLine?] at hx hy
  split at hx
  · split at hy
    · cases hx
      cases hy
      exact hlm
    · cases hy
  · cases hx

theorem ascending_linesOf (text : String) : (linesOf text).Pairwise fun x y => x.1 < y.1 :=
  ascending_numberedLines 1 _

theorem mem_linesOf {text : String} {l : List Char × Nat} {o : ChoiceOption}
    (h : l ∈ trimmedLines text) (ho : optionOn? l.1 = some o) :
    (l.2, Line.classify l.1) ∈ linesOf text ∧ (Line.classify l.1).option? = some o := by
  rw [← option?_classify] at ho
  split at ho
  · next hk =>
    refine ⟨?_, ho⟩
    rw [linesOf_eq, List.mem_filterMap]
    exact ⟨l, h, if_pos hk⟩
  · cases ho

theorem numbered_actions (text : String) :
    (assemble (linesOf text)).1.map (fun e => (e.1, e.2.bare)) =
      ((trimmedLines text).filter fun l => acts l.1).map fun l => (l.2, actionOn l.1) := by
  rw [(assembled (ascending_linesOf text)).actions, linesOf_eq, actions_numbered]

theorem lines_parse (id text : String) : (Program.parse id text).lines =
    ((trimmedLines text).filter fun l => acts l.1).map Prod.snd := by
  have h := congrArg (List.map Prod.fst) (numbered_actions text)
  rw [List.map_map, List.map_map] at h
  exact h

theorem actions_parse (id text : String) : (Program.parse id text).actions.map Action.bare =
    ((trimmedLines text).filter fun l => acts l.1).map fun l => actionOn l.1 := by
  have h := congrArg (List.map Prod.snd) (numbered_actions text)
  rw [List.map_map, List.map_map] at h
  rw [Program.parse, Program.ofActions, List.map_map]
  exact h

theorem zip_parse (id text : String) :
    (Program.parse id text).lines.zip (Program.parse id text).actions =
      (assemble (linesOf text)).1 :=
  (List.zip_of_prod rfl rfl).symm

theorem not_mem_lines {text : String} {l : List Char × Nat} {o : ChoiceOption}
    (h : l ∈ trimmedLines text) (ho : optionOn? l.1 = some o) (id : String) :
    l.2 ∉ (Program.parse id text).lines := by
  intro hm
  rw [lines_parse] at hm
  obtain ⟨m, hm, he⟩ := List.mem_map.mp hm
  obtain ⟨hm, ha⟩ := List.mem_filter.mp hm
  have hs := ascending_trimmedLines text
  rw [← List.pairwise_map] at hs
  have hn : ((trimmedLines text).map Prod.snd).Nodup := hs.imp Nat.ne_of_lt
  rw [List.inj_on_of_nodup_map hn hm h he, acts, ho] at ha
  simp at ha

theorem outline_program (id text : String) :
    Outline text (.parse id text) (Program.warnings text) where
  actions := actions_parse id text
  lines := lines_parse id text
  aligned := by
    have h := congrArg List.length (actions_parse id text)
    rw [List.length_map, List.length_map] at h
    rw [lines_parse, List.length_map, h]
  ascending := by
    rw [lines_parse, List.pairwise_map]
    exact (ascending_trimmedLines text).filter _
  options options n hm := by
    rw [zip_parse] at hm ⊢
    rw [(assembled (ascending_linesOf text)).options n options hm, ← optionsAt_numbered,
      ← linesOf_eq]
  stray l hl o ho hc := by
    rw [zip_parse] at hc
    obtain ⟨hm, hlo⟩ := mem_linesOf hl ho
    exact ⟨warnings_stray (ascending_linesOf text) hm hlo hc [], not_mem_lines hl ho id⟩

end Script

/-- Whatever a parser has read before, what it makes of a text is given line by line. -/
theorem Parser.parse_outline (q : Parser) (id text : String) :
    Script.Outline text (q.parse id text).2 (q.parse id text).1.warnings ∧
      q.parse id text = fresh.parse id text := by
  refine ⟨?_, rfl⟩
  obtain ⟨hp, hw⟩ := q.parse_eq id text
  rw [hp, hw]
  exact Script.outline_program id text

end Dialogue
