import Dialogue.Check.Analysis
import Dialogue.Proofs.Play.Reader
import Dialogue.Proofs.Script.Outline
import Mathlib.Data.List.Basic
namespace Dialogue

def Script.Warning.repeated? : Script.Warning → Option (Nat × String)
  | .repeatedLabel line name => some (line, name)
  | _ => none

def Diagnostic.begins (d : Diagnostic) (start : String) : Bool :=
  start.toList.isPrefixOf d.message.toList

namespace Program

def Declares (p : Program) (name : String) (i : Nat) : Prop :=
  p.action? i = some (.label name) ∧ ∀ j < i, p.action? j ≠ some (.label name)

/-- Whether an action is a declaration behind which no jump goes on. -/
def repeatAt? (p : Program) (e : Action × Nat) : Option (Nat × String) :=
  e.1.label?.bind fun name => if p.label? name = some (e.2 + 1) then none else some (e.2, name)

def repeats (p : Program) : List (Nat × String) :=
  p.indexed.filterMap p.repeatAt?

def firstLine? (p : Program) (name : String) : Option Nat :=
  (p.label? name).bind fun i => p.line? (i - 1)

/-- The labels that are jumped to, from the top of the text, each with the line of its action. -/
def jumps (p : Program) : List (Nat × String) :=
  (p.lines.zip p.actions).flatMap fun (line, a) =>
    match a with
    | .goto target => [(line, target)]
    | .choices options => options.map fun o => (line, o.target)
    | _ => []

/-- Everything that knows of labels, in a script that has been read with these warnings, agrees. -/
structure Labelled (p : Program) (ws : List Script.Warning) : Prop where
  found_iff : ∀ name i, p.label? name = some i ↔ ∃ k, i = k + 1 ∧ p.Declares name k
  missing_iff : ∀ name, p.label? name = none ↔ name ∉ p.definedLabels
  aligned : p.lines.length = p.actions.length
  ascending : p.lines.Pairwise (· < ·)
  warned : (ws.filterMap Script.Warning.repeated?).map (fun w => (some w.1, w.2)) =
    p.repeats.map fun r => (p.line? r.1, r.2)
  remarked : p.analyze.filter (·.begins "标签 '") = p.repeats.map fun r =>
    { level := .warn, script := p.id, line := p.line? r.1
      message := "标签 '" ++ r.2 ++ "' 重复定义，此处定义被忽略"
      detail := (p.firstLine? r.2).map fun line => "第一次定义在第 " ++ toString line ++ " 行" }
  first_known : ∀ r ∈ p.repeats, (p.firstLine? r.2).isSome
  undefined : p.analyze.filter (·.begins "未定义的跳转目标: ") =
    (p.jumps.filter fun j => j.2 ∉ p.definedLabels).map fun j =>
      { level := .error, script := p.id, line := some j.1
        message := "未定义的跳转目标: " ++ j.2
        detail := some ("goto 或 choice 引用了不存在的 label '" ++ j.2 ++ "'") }
  complete_iff : p.analyze.filter (·.begins "未定义的跳转目标: ") = [] ↔
    ∀ target ∈ p.targetLabels, target ∈ p.definedLabels

section Table

variable {p : Program} {name : String} {i : Nat}

theorem Indexed.label?_eq_some_iff (h : p.Indexed) :
    p.label? name = some i ↔ ∃ k, i = k + 1 ∧ p.Declares name k := by
  rw [h.label?_eq, behind?, Option.map_eq_some_iff]
  constructor
  · rintro ⟨k, hk, rfl⟩
    obtain ⟨hl, he, hlt⟩ := List.idxOf?_eq_some_iff.mp hk
    refine ⟨k, rfl, List.getElem?_eq_some_iff.mpr ⟨hl, he⟩, ?_⟩
    intro j hj hd
    obtain ⟨_, hd⟩ := List.getElem?_eq_some_iff.mp hd
    exact hlt j hj hd
  · rintro ⟨k, rfl, hk, hlt⟩
    obtain ⟨hl, he⟩ := List.getElem?_eq_some_iff.mp hk
    refine ⟨k, List.idxOf?_eq_some_iff.mpr ⟨hl, he, ?_⟩, rfl⟩
    intro j hj hd
    exact hlt j hj (List.getElem?_eq_some_iff.mpr ⟨_, hd⟩)

theorem label?_eq_some {a : Action} : a.label? = some name ↔ a = .label name := by
  cases a <;> simp [Action.label?]

theorem mem_definedLabels_iff : name ∈ p.definedLabels ↔ .label name ∈ p.actions := by
  rw [definedLabels, List.mem_filterMap]
  simp only [label?_eq_some, exists_eq_right]

theorem Indexed.label?_eq_none_iff (h : p.Indexed) :
    p.label? name = none ↔ name ∉ p.definedLabels := by
  rw [h.label?_eq, behind?, Option.map_eq_none_iff, List.idxOf?_eq_none_iff,
    mem_definedLabels_iff]

end Table

end Program

namespace Finding

def isRepeat : Finding → Bool
  | .repeatedLabel .. => true
  | _ => false

def isUndefined : Finding → Bool
  | .undefinedTarget _ => true
  | _ => false

def opening : Finding → String
  | .oddity _ => "第 "
  | .repeatedLabel .. => "标签 '"
  | .emptyChoice => "选择"
  | .undefinedTarget _ => "未定义的跳转目标: "
  | .silentLoop _ => "跳转到 '"
  | .missingImage .. => "立绘不存在: "
  | .unreadable _ => "无法读取文件"

theorem exists_message (f : Finding) : ∃ rest, f.message = f.opening ++ rest := by
  cases f with
  | oddity w =>
    have hm : message (.oddity w) = w.message := rfl
    rw [hm, Script.Warning.message, String.append_assoc, String.append_assoc]
    exact ⟨_, rfl⟩
  | repeatedLabel => exact ⟨_, String.append_assoc ..⟩
  | emptyChoice => exact ⟨"分支没有任何选项", by decide⟩
  | undefinedTarget => exact ⟨_, rfl⟩
  | silentLoop => exact ⟨_, String.append_assoc ..⟩
  | missingImage => exact ⟨_, rfl⟩
  | unreadable => exact ⟨"", (String.append_empty ..).symm⟩

variable (f : Finding) (script : String) (line : Option Nat)

theorem begins_self : (f.diagnostic script line).begins f.opening = true := by
  obtain ⟨rest, hm⟩ := f.exists_message
  rw [Diagnostic.begins, diagnostic, hm, String.toList_append, List.isPrefixOf_iff_prefix]
  exact List.prefix_append _ _

theorem begins_of_ne {start : String} (hs : start ≠ "") (hf : f.opening ≠ "")
    (h : start.toList.head? ≠ f.opening.toList.head?) :
    (f.diagnostic script line).begins start = false := by
  obtain ⟨rest, hm⟩ := f.exists_message
  rw [Diagnostic.begins, diagnostic, hm, String.toList_append]
  cases hb : f.opening.toList with
  | nil => exact absurd (String.toList_eq_nil_iff.mp hb) hf
  | cons c b =>
    cases ha : start.toList with
    | nil => exact absurd (String.toList_eq_nil_iff.mp ha) hs
    | cons d a =>
      rw [ha, hb, List.head?_cons, List.head?_cons] at h
      have hd : (d == c) = false := beq_eq_false_iff_ne.mpr fun he => h (congrArg some he)
      rw [List.cons_append, List.isPrefixOf, hd, Bool.false_and]

theorem begins_repeat : (f.diagnostic script line).begins "标签 '" = f.isRepeat := by
  cases f with
  | repeatedLabel => exact begins_self ..
  | _ => exact begins_of_ne _ _ _ (by decide) (by rw [opening]; decide) (by rw [opening]; decide)

theorem begins_undefined :
    (f.diagnostic script line).begins "未定义的跳转目标: " = f.isUndefined := by
  cases f with
  | undefinedTarget => exact begins_self ..
  | _ => exact begins_of_ne _ _ _ (by decide) (by rw [opening]; decide) (by rw [opening]; decide)

end Finding

namespace Program

section Findings

variable {p : Program}

theorem filter_analyze {keep : Diagnostic → Bool} {kind : Finding → Bool}
    (h : ∀ f script line, keep (Finding.diagnostic script line f) = kind f) :
    p.analyze.filter keep =
      (p.findings.filter fun e => kind e.2).map fun e => e.2.diagnostic p.id (p.line? e.1) := by
  rw [analyze, List.filter_map]
  congr 1
  apply List.filter_congr
  intro e _
  exact h _ _ _

theorem findIdx?_label (p : Program) (name : String) :
    p.actions.findIdx? (·.label? = some name) = p.actions.idxOf? (.label name) := by
  rw [List.idxOf?]
  congr 1
  funext a
  rw [Bool.eq_iff_iff, decide_eq_true_iff, beq_iff_eq, label?_eq_some]

theorem Indexed.exists_first (h : p.Indexed) {name : String} {i : Nat}
    (hi : p.action? i = some (.label name)) : ∃ k, p.actions.idxOf? (.label name) = some k ∧
      p.label? name = some (k + 1) ∧ k ≤ i := by
  have hm : .label name ∈ p.actions := List.mem_of_getElem? hi
  obtain ⟨k, hk⟩ := Option.isSome_iff_exists.mp (List.isSome_idxOf?.mpr hm)
  refine ⟨k, hk, ?_, ?_⟩
  · rw [h.label?_eq, behind?, hk]
    rfl
  · by_contra hlt
    obtain ⟨hl, he⟩ := List.getElem?_eq_some_iff.mp hi
    obtain ⟨_, _, hne⟩ := List.idxOf?_eq_some_iff.mp hk
    exact hne i (Nat.lt_of_not_le hlt) he

theorem filter_findings {kind : Finding → Bool} (p : Program)
    (hl : ∀ label, kind (.silentLoop label) = false) :
    (p.findings.filter fun e => kind e.2) = (p.slips.filter fun e => kind e.2) ++
      p.undefinedTargets.filter fun e => kind e.2 := by
  rw [findings, List.filter_append, List.filter_append]
  refine (congrArg _ (List.filter_eq_nil_iff.mpr ?_)).trans (List.append_nil _)
  intro e he
  obtain ⟨j, _, rfl⟩ := List.mem_map.mp he
  rw [hl]
  exact Bool.false_ne_true

theorem Indexed.undefinedTargets_eq (h : p.Indexed) : p.undefinedTargets =
    (p.jumpTargets.filter fun j => j.2 ∉ p.definedLabels).map fun j =>
      (j.1, .undefinedTarget j.2) := by
  rw [undefinedTargets, ← List.filterMap_eq_map, List.filterMap_filter]
  apply List.filterMap_congr
  rintro ⟨i, target⟩ _
  dsimp only
  by_cases hd : target ∈ p.definedLabels
  · obtain ⟨k, hk⟩ := Option.ne_none_iff_exists'.mp (mt h.label?_eq_none_iff.mp (not_not_intro hd))
    simp [hk, hd]
  · simp [h.label?_eq_none_iff.mpr hd, hd]

theorem Indexed.filter_repeats (h : p.Indexed) : (p.findings.filter fun e => e.2.isRepeat) =
    p.repeats.map fun r => (r.1, .repeatedLabel r.2 (p.firstLine? r.2)) := by
  have hu : (p.undefinedTargets.filter fun e => e.2.isRepeat) = [] := by
    rw [h.undefinedTargets_eq, List.filter_map, List.map_eq_nil_iff]
    exact List.filter_eq_nil_iff.mpr fun _ _ => Bool.false_ne_true
  rw [p.filter_findings fun _ => rfl, hu, List.append_nil, slips, repeats, List.filter_filterMap,
    List.map_filterMap]
  apply List.filterMap_congr
  rintro ⟨a, i⟩ hm
  have ha : p.action? i = some a := List.mem_zipIdx_iff_getElem?.mp hm
  cases a with
  | label name =>
    obtain ⟨k, hk, hlabel, hle⟩ := h.exists_first ha
    have hname : (Action.label name).label? = some name := rfl
    dsimp only
    rw [findIdx?_label, hk, repeatAt?, hname, Option.bind_some, hlabel]
    by_cases he : k = i
    · simp [he]
    · have hlt : k < i := Nat.lt_of_le_of_ne hle he
      simp [he, hlt, Finding.isRepeat, firstLine?, hlabel]
  | choices options => cases options <;> rfl
  | _ => rfl

theorem Indexed.filter_undefined (h : p.Indexed) : (p.findings.filter fun e => e.2.isUndefined) =
    p.undefinedTargets := by
  have hs : (p.slips.filter fun e => e.2.isUndefined) = [] := by
    rw [List.filter_eq_nil_iff]
    intro e he
    obtain ⟨⟨a, i⟩, _, hj⟩ := List.mem_filterMap.mp he
    cases a with
    | label name =>
      dsimp only at hj
      split at hj
      · split at hj
        · cases hj
          exact Bool.false_ne_true
        · cases hj
      · cases hj
    | choices options =>
      cases options with
      | nil =>
        cases hj
        exact Bool.false_ne_true
      | cons => cases hj
    | _ => cases hj
  rw [p.filter_findings fun _ => rfl, hs, List.nil_append, h.undefinedTargets_eq]
  apply List.filter_eq_self.mpr
  intro e he
  obtain ⟨j, _, rfl⟩ := List.mem_map.mp he
  rfl

theorem map_indexed (ha : p.lines.length = p.actions.length) :
    p.indexed.map (fun e => (p.line? e.2, e.1)) =
      (p.lines.zip p.actions).map fun e => (some e.1, e.2) := by
  apply List.ext_getElem
  · rw [List.length_map, List.length_map, List.length_zip, indexed, List.length_zipIdx, ha,
      Nat.min_self]
  · intro i hi _
    rw [List.length_map, indexed, List.length_zipIdx] at hi
    simp [indexed, line?, ha, hi]

theorem map_jumpTargets (ha : p.lines.length = p.actions.length) :
    p.jumpTargets.map (fun j => (p.line? j.1, j.2)) = p.jumps.map fun j => (some j.1, j.2) := by
  have hi : p.jumpTargets.map (fun j => (p.line? j.1, j.2)) =
      (p.indexed.map fun e => (p.line? e.2, e.1)).flatMap fun e =>
        (targetsOf e.2).map (e.1, ·) := by
    rw [jumpTargets, List.map_flatMap, List.flatMap_map]
    apply List.flatMap_congr
    rintro ⟨a, i⟩ _
    rw [List.map_map]
    rfl
  rw [hi, map_indexed ha, jumps, List.map_flatMap, List.flatMap_map]
  apply List.flatMap_congr
  rintro ⟨n, a⟩ _
  cases a with
  | choices options => simp [targetsOf]
  | _ => rfl

theorem mem_targetLabels_iff {target : String} :
    target ∈ p.targetLabels ↔ ∃ j ∈ p.jumpTargets, j.2 = target := by
  rw [targetLabels, List.mem_eraseDups, List.mem_mergeSort, List.mem_map]

theorem Indexed.analyze_repeats (h : p.Indexed) :
    p.analyze.filter (·.begins "标签 '") = p.repeats.map fun r =>
      { level := .warn, script := p.id, line := p.line? r.1
        message := "标签 '" ++ r.2 ++ "' 重复定义，此处定义被忽略"
        detail := (p.firstLine? r.2).map fun line => "第一次定义在第 " ++ toString line ++ " 行" } := by
  rw [filter_analyze Finding.begins_repeat, h.filter_repeats, List.map_map]
  rfl

theorem Indexed.analyze_undefined (h : p.Indexed) (ha : p.lines.length = p.actions.length) :
    p.analyze.filter (·.begins "未定义的跳转目标: ") =
      (p.jumps.filter fun j => j.2 ∉ p.definedLabels).map fun j =>
        { level := .error, script := p.id, line := some j.1
          message := "未定义的跳转目标: " ++ j.2
          detail := some ("goto 或 choice 引用了不存在的 label '" ++ j.2 ++ "'") } := by
  have hj := congrArg (fun js => (js.filter fun j => j.2 ∉ p.definedLabels).map fun j =>
    (Finding.undefinedTarget j.2).diagnostic p.id j.1) (map_jumpTargets ha)
  simp only [List.filter_map, List.map_map] at hj
  rw [filter_analyze Finding.begins_undefined, h.filter_undefined, h.undefinedTargets_eq,
    List.map_map]
  exact hj

end Findings

section Repeats

open Script

variable {p : Program} {pre suf : List (Nat × Action)} {seen : List String} {name : String}
  {n : Nat} {r : List (Nat × Action)}

def repeatsFrom (seen : List String) : List (Nat × Action) → List (Nat × String)
  | [] => []
  | (n, a) :: r =>
    match a.label? with
    | some name => (if name ∈ seen then [(n, name)] else []) ++ repeatsFrom (name :: seen) r
    | none => repeatsFrom seen r

theorem filterMap_warningsFrom (seen : List String) (inChoice : Bool) (ls : List (Nat × Line)) :
    (warningsFrom seen inChoice ls).filterMap Warning.repeated? =
      repeatsFrom seen (assemble ls).1 := by
  induction ls generalizing seen inChoice with
  | nil => rfl
  | cons l ls ih =>
    obtain ⟨n, l⟩ := l
    cases l with
    | option text target =>
      rw [assemble_option rfl, warningsFrom, List.filterMap_append, ih]
      cases inChoice <;> rfl
    | prose content =>
      rw [assemble_action rfl rfl, warningsFrom, ih]
      rfl
    | tag name body =>
      have hd : ((Tag.ofLine name body).defects.map
          (Warning.tag n (Tag.ofLine name body).name)).filterMap Warning.repeated? = [] := by
        rw [List.filterMap_map]
        exact List.filterMap_eq_nil_iff.mpr fun _ _ => rfl
      have hl : Line.action? (.tag name body) = some (Tag.ofLine name body).action := rfl
      rw [warningsFrom, List.filterMap_append, hd, List.nil_append]
      cases ha : (Tag.ofLine name body).action with
      | label label =>
        rw [assemble_action (hl.trans (congrArg some ha)) rfl]
        dsimp only
        rw [List.filterMap_append, ih, repeatsFrom]
        dsimp only [Action.label?]
        split <;> rfl
      | choices options =>
        rw [assemble_choices (hl.trans (congrArg some ha)) rfl]
        exact ih ..
      | _ =>
        rw [assemble_action (hl.trans (congrArg some ha)) rfl]
        exact ih ..

theorem Indexed.label?_append (h : p.Indexed)
    (ha : p.actions = (pre ++ (n, .label name) :: suf).map Prod.snd) :
    p.label? name = some (pre.length + 1) ↔ .label name ∉ pre.map Prod.snd := by
  rw [List.map_append, List.map_cons] at ha
  rw [h.label?_eq_some_iff]
  constructor
  · rintro ⟨k, hk, -, hlt⟩ hm
    obtain ⟨j, hj, he⟩ := List.getElem_of_mem hm
    obtain rfl : pre.length = k := Nat.succ.inj hk
    have hj' := hj
    rw [List.length_map] at hj'
    apply hlt j hj'
    rw [action?, ha, List.getElem?_append_left hj]
    exact List.getElem?_eq_some_iff.mpr ⟨hj, he⟩
  · intro hm
    refine ⟨pre.length, rfl, ?_, ?_⟩
    · rw [action?, ha, List.getElem?_append_right (Nat.le_of_eq (List.length_map _)),
        List.length_map, Nat.sub_self]
      rfl
    · intro j hj hd
      rw [action?, ha, List.getElem?_append_left (by rwa [List.length_map])] at hd
      exact hm (List.mem_of_getElem? hd)

theorem Indexed.repeats_append (h : p.Indexed) (pre : List (Nat × Action)) (seen : List String)
    (hl : p.lines = (pre ++ suf).map Prod.fst) (ha : p.actions = (pre ++ suf).map Prod.snd)
    (hs : ∀ name, name ∈ seen ↔ .label name ∈ pre.map Prod.snd) :
    (((suf.map Prod.snd).zipIdx pre.length).filterMap p.repeatAt?).map
      (fun r => (p.line? r.1, r.2)) = (repeatsFrom seen suf).map fun r => (some r.1, r.2) := by
  -- The induction is on the actions that are left; `pre` are those above, and `seen` their labels.
  induction suf generalizing pre seen with
  | nil => rfl
  | cons e suf ih =>
    obtain ⟨n, a⟩ := e
    have happ : pre ++ (n, a) :: suf = pre ++ [(n, a)] ++ suf := List.append_cons pre (n, a) suf
    have hline : p.line? pre.length = some n := by
      rw [line?, hl, List.map_append, List.getElem?_append_right (Nat.le_of_eq (List.length_map _)),
        List.length_map, Nat.sub_self]
      rfl
    have hlen : (pre ++ [(n, a)]).length = pre.length + 1 := List.length_append
    have ih' (seen') := ih _ seen' (hl.trans (congrArg _ happ)) (ha.trans (congrArg _ happ))
    rw [hlen, List.map_append, List.map_singleton] at ih'
    rw [List.map_cons, List.zipIdx_cons, List.filterMap_cons, repeatsFrom, repeatAt?]
    dsimp only
    cases hlab : a.label? with
    | none =>
      apply ih'
      intro name
      have hne : .label name ≠ a := by
        rintro rfl
        cases hlab
      rw [List.mem_append, List.mem_singleton, or_iff_left hne, hs]
    | some name =>
      obtain rfl := label?_eq_some.mp hlab
      have hfirst := h.label?_append ha
      have hseen (l : String) : l ∈ name :: seen ↔
          .label l ∈ pre.map Prod.snd ++ [.label name] := by
        rw [List.mem_cons, List.mem_append, List.mem_singleton, Action.label.injEq, hs, or_comm]
      have hrest := ih' (name :: seen) hseen
      rw [← hs] at hfirst
      dsimp only
      rw [Option.bind_some]
      by_cases hm : name ∈ seen
      · rw [if_neg fun hf => hfirst.mp hf hm, if_pos hm, List.map_cons, hline, hrest]
        rfl
      · rw [if_pos (hfirst.mpr hm), if_neg hm, hrest]
        rfl

end Repeats

section Complete

variable {p : Program}

theorem Indexed.isSome_firstLine? (h : p.Indexed) (ha : p.lines.length = p.actions.length) :
    ∀ r ∈ p.repeats, (p.firstLine? r.2).isSome := by
  intro r hr
  obtain ⟨⟨a, i⟩, hm, hr⟩ := List.mem_filterMap.mp hr
  obtain ⟨name, hlab, hr⟩ := Option.bind_eq_some_iff.mp hr
  obtain rfl := label?_eq_some.mp hlab
  have hi : p.action? i = some (.label name) := List.mem_zipIdx_iff_getElem?.mp hm
  obtain ⟨k, hk, hlabel, -⟩ := h.exists_first hi
  obtain ⟨hlt, -⟩ := List.idxOf?_eq_some_iff.mp hk
  rw [← ha] at hlt
  split at hr
  · cases hr
  · cases hr
    rw [firstLine?, hlabel, Option.bind_some, Nat.add_sub_cancel, line?,
      List.getElem?_eq_getElem hlt]
    rfl

theorem Indexed.complete_iff (h : p.Indexed) :
    p.analyze.filter (·.begins "未定义的跳转目标: ") = [] ↔
      ∀ target ∈ p.targetLabels, target ∈ p.definedLabels := by
  rw [filter_analyze Finding.begins_undefined, h.filter_undefined, h.undefinedTargets_eq,
    List.map_eq_nil_iff, List.map_eq_nil_iff, List.filter_eq_nil_iff]
  simp only [decide_eq_true_eq, not_not, mem_targetLabels_iff, forall_exists_index, and_imp]
  constructor
  · rintro hj _ j hm rfl
    exact hj j hm
  · intro ht j hm
    exact ht j.2 j hm rfl

end Complete

end Program

/-- Whatever a parser has read before, what it makes of a text and what is said of it agree about
the labels. -/
theorem Parser.parse_labelled (q : Parser) (id text : String) :
    (q.parse id text).2.Labelled (q.parse id text).1.warnings := by
  obtain ⟨hp, hw⟩ := q.parse_eq id text
  rw [hp, hw]
  have h := Program.indexed_parse id text
  have houtline := Script.outline_program id text
  constructor
  · intro name i
    exact h.label?_eq_some_iff
  · intro name
    exact h.label?_eq_none_iff
  · exact houtline.aligned
  · exact houtline.ascending
  · rw [Program.warnings, Script.warnings, Program.filterMap_warningsFrom]
    symm
    apply h.repeats_append [] [] rfl rfl
    intro name
    exact iff_of_false List.not_mem_nil List.not_mem_nil
  · exact h.analyze_repeats
  · exact h.isSome_firstLine? houtline.aligned
  · exact h.analyze_undefined houtline.aligned
  · exact h.complete_iff

end Dialogue
