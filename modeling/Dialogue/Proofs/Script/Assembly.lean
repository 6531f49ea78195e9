import Dialogue.Proofs.Script.Draft
namespace Dialogue

def Action.bare : Action → Action
  | .choices _ => .choices []
  | a => a

def Action.isChoices : Action → Bool
  | .choices _ => true
  | _ => false

namespace Script

def Line.action? : Line → Option Action
  | .tag name body => some (Tag.ofLine name body).action
  | .option .. => none
  | .prose content => some (.message content)

def Line.option? : Line → Option ChoiceOption
  | .option text target => some ⟨text, target⟩
  | _ => none

def choiceLines (actions : List (Nat × Action)) : List Nat :=
  (actions.filter fun e => e.2.isChoices).map Prod.fst

theorem Tag.bare_action (tag : Tag) : tag.action.bare = tag.action := by
  cases h : tag.action with
  | choices options => rw [options_eq_nil h, Action.bare]
  | _ => rfl

section Assemble

variable {n : Nat} {l : Line} {a : Action} {o : ChoiceOption} {ls : List (Nat × Line)}

theorem Line.action_or_option (l : Line) : (∃ a, l.action? = some a ∧ l.option? = none) ∨
    ∃ o, l.action? = none ∧ l.option? = some o := by
  cases l with
  | option text target => exact .inr ⟨_, rfl, rfl⟩
  | tag | prose => exact .inl ⟨_, rfl, rfl⟩

theorem Line.bare_of_action? (h : l.action? = some a) : a.bare = a := by
  cases l with
  | option => cases h
  | prose =>
    cases h
    rfl
  | tag name body =>
    cases h
    exact Tag.bare_action _

theorem assemble_option (h : l.option? = some o) :
    assemble ((n, l) :: ls) = ((assemble ls).1, o :: (assemble ls).2) := by
  cases l with
  | option text target =>
    cases h
    rfl
  | tag | prose => cases h

theorem assemble_choices (h : l.action? = some a) (hc : a.isChoices = true) :
    assemble ((n, l) :: ls) = ((n, .choices (assemble ls).2) :: (assemble ls).1, []) := by
  cases l with
  | option => cases h
  | prose =>
    cases h
    cases hc
  | tag name body =>
    rw [Line.action?, Option.some.injEq] at h
    simp only [assemble, h]
    cases a with
    | choices => rfl
    | _ => cases hc

theorem assemble_action (h : l.action? = some a) (hc : a.isChoices = false) :
    assemble ((n, l) :: ls) = ((n, a) :: (assemble ls).1, (assemble ls).2) := by
  cases l with
  | option => cases h
  | prose =>
    cases h
    rfl
  | tag name body =>
    rw [Line.action?, Option.some.injEq] at h
    simp only [assemble, h]
    cases a with
    | choices => cases hc
    | _ => rfl

def optionsAt (keep : Nat → Bool) (ls : List (Nat × Line)) : List ChoiceOption :=
  (ls.filter fun l => keep l.1).filterMap fun l => l.2.option?

theorem optionsAt_cons (keep : Nat → Bool) (h : l.option? = some o) :
    optionsAt keep ((n, l) :: ls) =
      if keep n then o :: optionsAt keep ls else optionsAt keep ls := by
  rw [optionsAt, List.filter_cons]
  cases keep n with
  | true => exact List.filterMap_cons_some h
  | false => rfl

theorem optionsAt_cons_of_none (keep : Nat → Bool) (h : l.option? = none) :
    optionsAt keep ((n, l) :: ls) = optionsAt keep ls := by
  rw [optionsAt, List.filter_cons]
  cases keep n with
  | true => exact List.filterMap_cons_none h
  | false => rfl

theorem optionsAt_congr {keep keep' : Nat → Bool} (h : ∀ l ∈ ls, keep l.1 = keep' l.1) :
    optionsAt keep ls = optionsAt keep' ls := by
  rw [optionsAt, List.filter_congr h, optionsAt]

theorem optionsAt_eq_nil {keep : Nat → Bool} (h : ∀ l ∈ ls, keep l.1 = false) :
    optionsAt keep ls = [] := by
  have hf : ls.filter (fun l => keep l.1) = [] := by
    rw [List.filter_eq_nil_iff]
    intro l hl
    rw [h l hl]
    exact Bool.false_ne_true
  rw [optionsAt, hf]
  rfl

/-- Whether a line comes before all the choices on the lines `cs`. -/
def beforeAll (cs : List Nat) (n : Nat) : Bool :=
  ∀ c ∈ cs, n < c

/-- Whether a line stands below line `n`, and no choice stands between them. -/
def under (cs : List Nat) (n m : Nat) : Bool :=
  n < m ∧ ∀ c ∈ cs, n < c → m < c

/-- Each numbered line that is no option becomes an action, and an option belongs to the nearest
choice above it. -/
structure Assembled (ls : List (Nat × Line)) (r : List (Nat × Action) × List ChoiceOption) :
    Prop where
  actions : r.1.map (fun e => (e.1, e.2.bare)) =
    ls.filterMap fun l => l.2.action?.map fun a => (l.1, a)
  options : ∀ n options, (n, .choices options) ∈ r.1 →
    options = optionsAt (under (choiceLines r.1) n) ls
  pending : r.2 = optionsAt (beforeAll (choiceLines r.1)) ls

variable {r : List (Nat × Action) × List ChoiceOption}

theorem Assembled.mem_lines (h : Assembled ls r) {e : Nat × Action} (he : e ∈ r.1) :
    ∃ l ∈ ls, l.1 = e.1 := by
  have hm : (e.1, e.2.bare) ∈ r.1.map fun e => (e.1, e.2.bare) := List.mem_map.mpr ⟨e, he, rfl⟩
  rw [h.actions, List.mem_filterMap] at hm
  obtain ⟨l, hl, ha⟩ := hm
  obtain ⟨a, _, ha⟩ := Option.map_eq_some_iff.mp ha
  exact ⟨l, hl, congrArg Prod.fst ha⟩

theorem Assembled.lt_of_mem (h : Assembled ls r) (hn : ∀ l ∈ ls, n < l.1) {e : Nat × Action}
    (he : e ∈ r.1) : n < e.1 := by
  obtain ⟨l, hl, hle⟩ := h.mem_lines he
  exact hle ▸ hn l hl

theorem Assembled.lt_choice (h : Assembled ls r) (hn : ∀ l ∈ ls, n < l.1) {c : Nat}
    (hc : c ∈ choiceLines r.1) : n < c := by
  obtain ⟨e, he, rfl⟩ := List.mem_map.mp hc
  exact h.lt_of_mem hn (List.mem_filter.mp he).1

theorem Assembled.option (h : Assembled ls r) (hn : ∀ l ∈ ls, n < l.1)
    (hl : l.action? = none) (ho : l.option? = some o) :
    Assembled ((n, l) :: ls) (r.1, o :: r.2) where
  actions := by
    rw [h.actions, List.filterMap_cons]
    simp only [hl, Option.map_none]
  options m options hm := by
    have hlt : n < m := h.lt_of_mem hn hm
    have hk : under (choiceLines r.1) m n = false := by
      rw [under, decide_eq_false_iff_not]
      intro hu
      exact absurd hu.1 (Nat.lt_asymm hlt)
    rw [h.options m options hm, optionsAt_cons _ ho, hk]
    rfl
  pending := by
    have hk : beforeAll (choiceLines r.1) n = true := by
      rw [beforeAll, decide_eq_true_eq]
      intro c hc
      exact h.lt_choice hn hc
    rw [optionsAt_cons _ ho, if_pos hk, ← h.pending]

theorem choiceLines_cons_of_not (hc : a.isChoices = false) (actions : List (Nat × Action)) :
    choiceLines ((n, a) :: actions) = choiceLines actions := by
  simp only [choiceLines, List.filter_cons, hc, Bool.false_eq_true, if_false]

theorem Assembled.action (h : Assembled ls r) (hl : l.action? = some a) (ho : l.option? = none)
    (hc : a.isChoices = false) : Assembled ((n, l) :: ls) ((n, a) :: r.1, r.2) := by
  have hcl : choiceLines ((n, a) :: r.1) = choiceLines r.1 := choiceLines_cons_of_not hc r.1
  constructor
  · rw [List.map_cons, h.actions, List.filterMap_cons]
    simp only [hl, Option.map_some, Line.bare_of_action? hl]
  · intro m options hm
    rw [optionsAt_cons_of_none _ ho, hcl]
    refine h.options m options ((List.mem_cons.mp hm).resolve_left ?_)
    intro he
    cases he
    cases hc
  · rw [optionsAt_cons_of_none _ ho, hcl]
    exact h.pending

theorem Assembled.choices (h : Assembled ls r) (hn : ∀ l ∈ ls, n < l.1)
    (hl : l.action? = some a) (ho : l.option? = none) (hc : a.isChoices = true) :
    Assembled ((n, l) :: ls) ((n, .choices r.2) :: r.1, []) := by
  have hcl : choiceLines ((n, .choices r.2) :: r.1) = n :: choiceLines r.1 := rfl
  constructor
  · rw [List.map_cons, h.actions, List.filterMap_cons]
    cases a with
    | choices options =>
      have hb := Line.bare_of_action? hl
      simp only [hl, Option.map_some, ← hb, Action.bare]
    | _ => cases hc
  · intro m options hm
    rw [hcl, optionsAt_cons_of_none _ ho]
    rcases List.mem_cons.mp hm with he | hm
    · cases he
      rw [h.pending]
      apply optionsAt_congr
      intro x hx
      have hx := hn x hx
      simp only [beforeAll, under, List.forall_mem_cons, Nat.lt_irrefl, hx, decide_eq_decide,
        true_and, false_implies]
      constructor
      · intro hb c hc _
        exact hb c hc
      · intro hu c hc
        exact hu c hc (h.lt_choice hn hc)
    · rw [h.options m options hm]
      apply optionsAt_congr
      intro x _
      have hlt := h.lt_of_mem hn hm
      simp only [under, List.forall_mem_cons, Nat.lt_asymm hlt, false_implies, true_and]
  · rw [hcl, optionsAt_cons_of_none _ ho]
    refine (optionsAt_eq_nil ?_).symm
    intro x hx
    rw [beforeAll, decide_eq_false_iff_not]
    intro hb
    exact Nat.lt_asymm (hn x hx) (hb n List.mem_cons_self)

theorem assembled (h : ls.Pairwise fun x y => x.1 < y.1) : Assembled ls (assemble ls) := by
  induction ls with
  | nil => exact ⟨rfl, nofun, rfl⟩
  | cons x ls ih =>
    obtain ⟨n, l⟩ := x
    obtain ⟨hn, hs⟩ := List.pairwise_cons.mp h
    rcases l.action_or_option with ⟨a, ha, ho⟩ | ⟨o, ha, ho⟩
    · cases hc : a.isChoices with
      | true =>
        rw [assemble_choices ha hc]
        exact (ih hs).choices hn ha ho hc
      | false =>
        rw [assemble_action ha hc]
        exact (ih hs).action ha ho hc
    · rw [assemble_option ho]
      exact (ih hs).option hn ha ho

theorem warningsFrom_cons (seen : List String) (inChoice : Bool) (n : Nat) (l : Line)
    (ls : List (Nat × Line)) : ∃ ws seen',
      warningsFrom seen inChoice ((n, l) :: ls) =
        ws ++ warningsFrom seen' (inChoice || l.action?.any Action.isChoices) ls ∧
      (∀ w ∈ ws, w.line = n) ∧
      ∀ o, l.option? = some o → ws = if inChoice then [] else [.strayOption n o.text o.target] := by
  have hno (k : Line) (hk : k.option? = none) (ws : List Warning) (o : ChoiceOption)
      (ho : k.option? = some o) :
      ws = if inChoice then [] else [.strayOption n o.text o.target] := by
    rw [hk] at ho
    cases ho
  cases l with
  | option text target =>
    refine ⟨if inChoice then [] else [.strayOption n text target], seen, ?_, ?_, ?_⟩
    · simp only [warningsFrom, Line.action?, Option.any_none, Bool.or_false]
    · intro w hw
      cases inChoice with
      | true => cases hw
      | false =>
        rw [List.mem_singleton.mp hw]
        rfl
    · intro o ho
      cases ho
      rfl
  | prose content =>
    refine ⟨[], seen, ?_, List.forall_mem_nil _, hno _ rfl _⟩
    simp only [warningsFrom, Line.action?, Option.any_some, Action.isChoices, Bool.or_false,
      List.nil_append]
  | tag name body =>
    generalize ht : Tag.ofLine name body = tag
    have hd : ∀ w ∈ tag.defects.map (Warning.tag n tag.name), w.line = n := by
      intro w hw
      obtain ⟨defect, _, rfl⟩ := List.mem_map.mp hw
      rfl
    cases ha : tag.action with
    | label label =>
      refine ⟨tag.defects.map (.tag n tag.name) ++
        if label ∈ seen then [.repeatedLabel n label] else [], label :: seen, ?_, ?_, hno _ rfl _⟩
      · simp only [warningsFrom, Line.action?, ht, ha, Option.any_some, Action.isChoices,
          Bool.or_false, List.append_assoc]
      · intro w hw
        rcases List.mem_append.mp hw with hw | hw
        · exact hd w hw
        · split at hw
          · rw [List.mem_singleton.mp hw]
            rfl
          · cases hw
    | _ =>
      refine ⟨tag.defects.map (.tag n tag.name), seen, ?_, hd, hno _ rfl _⟩
      simp only [warningsFrom, Line.action?, ht, ha, Option.any_some, Action.isChoices,
        Bool.or_false, Bool.or_true]

theorem exists_of_mem_warningsFrom {seen : List String} {inChoice : Bool} {w : Warning}
    (h : w ∈ warningsFrom seen inChoice ls) : ∃ l ∈ ls, l.1 = w.line := by
  induction ls generalizing seen inChoice with
  | nil => cases h
  | cons x ls ih =>
    obtain ⟨n, l⟩ := x
    obtain ⟨ws, seen', hw, hl, _⟩ := warningsFrom_cons seen inChoice n l ls
    rw [hw] at h
    rcases List.mem_append.mp h with h | h
    · exact ⟨(n, l), List.mem_cons_self, (hl w h).symm⟩
    · obtain ⟨x, hx, he⟩ := ih h
      exact ⟨x, List.mem_cons_of_mem _ hx, he⟩

theorem filter_eq_nil_of_line {ws : List Warning} {m : Nat} (h : ∀ w ∈ ws, w.line ≠ m) :
    ws.filter (fun w => w.line = m) = [] := by
  rw [List.filter_eq_nil_iff]
  intro w hw
  rw [decide_eq_true_eq]
  exact h w hw

theorem not_choices_of_beforeAll {m : Nat} (hmn : m < n)
    (h : beforeAll (choiceLines (assemble ((m, l) :: ls)).1) n = true) :
    l.action?.any Action.isChoices = false ∧
      beforeAll (choiceLines (assemble ls).1) n = true := by
  rcases l.action_or_option with ⟨a, ha, _⟩ | ⟨o, ha, ho⟩
  · rw [ha, Option.any_some]
    cases hc : a.isChoices with
    | true =>
      rw [assemble_choices ha hc, beforeAll, decide_eq_true_eq] at h
      exact absurd (h m List.mem_cons_self) (Nat.lt_asymm hmn)
    | false =>
      rw [assemble_action ha hc, choiceLines_cons_of_not hc] at h
      exact ⟨rfl, h⟩
  · rw [assemble_option ho] at h
    rw [ha]
    exact ⟨rfl, h⟩

/-- An option above all choices is warned of once. -/
theorem warnings_stray (hs : ls.Pairwise fun x y => x.1 < y.1) (hm : (n, l) ∈ ls)
    (ho : l.option? = some o) (hc : beforeAll (choiceLines (assemble ls).1) n = true)
    (seen : List String) : (warningsFrom seen false ls).filter (fun w => w.line = n) =
      [.strayOption n o.text o.target] := by
  induction ls generalizing seen with
  | nil => cases hm
  | cons x ls ih =>
    obtain ⟨m, k⟩ := x
    obtain ⟨hlt, hs⟩ := List.pairwise_cons.mp hs
    obtain ⟨ws, seen', hw, hl, hws⟩ := warningsFrom_cons seen false m k ls
    rw [hw, List.filter_append]
    rcases List.mem_cons.mp hm with he | hm
    · cases he
      have hr : ∀ w ∈ warningsFrom seen' (false || l.action?.any Action.isChoices) ls,
          w.line ≠ n := by
        intro w hw
        obtain ⟨x, hx, hxw⟩ := exists_of_mem_warningsFrom hw
        exact hxw ▸ Nat.ne_of_gt (hlt x hx)
      rw [filter_eq_nil_of_line hr, hws o ho]
      simp [Warning.line]
    · have hmn : m < n := hlt _ hm
      have hr : ∀ w ∈ ws, w.line ≠ n := by
        intro w hw
        exact hl w hw ▸ Nat.ne_of_lt hmn
      rw [filter_eq_nil_of_line hr, List.nil_append]
      obtain ⟨hk, hc⟩ := not_choices_of_beforeAll hmn hc
      rw [hk, Bool.or_false]
      exact ih hs hm hc seen'

end Assemble

end Script

end Dialogue
