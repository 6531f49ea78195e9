import Dialogue.Proofs.Script.Outline
import Dialogue.Proofs.Variable.Reordering
namespace Dialogue

def Action.assignments? : Action → Option (List Assignment)
  | .setVariables assignments => some assignments
  | .addVariables assignments => some assignments
  | _ => none

/-- Assignments of distinct variables, which may be made in any order. -/
structure Independent (assignments : List Assignment) : Prop where
  distinct : (assignments.map Assignment.name).Nodup
  set : ∀ order, order.Perm assignments → ∀ s : Store,
    (Action.update s (.setVariables order)).entries.Perm
      (Action.update s (.setVariables assignments)).entries
  add : ∀ order, order.Perm assignments → ∀ s : Store,
    (Action.update s (.addVariables order)).entries.Perm
      (Action.update s (.addVariables assignments)).entries
  answers : ∀ order, order.Perm assignments → ∀ s : Store,
    (s.answers order).Perm (s.answers assignments)

theorem independent_of_nodup {assignments : List Assignment}
    (h : (assignments.map Assignment.name).Nodup) : Independent assignments where
  distinct := h
  set _ := Store.own_set.perm_foldl h
  add _ := Store.own_accumulate.perm_foldl h
  answers _ := Store.perm_answers h

namespace Script

/-- Each parameter stands where its name first occurs in the body, with the value that it is given
last. -/
structure Tag.Collects (t : Tag) (attributes : List (String × String)) : Prop where
  keys : t.params.keys = (attributes.map Prod.fst).eraseDups
  entries : ∀ name value, (name, value) ∈ t.params.entries ↔
    Table.GivenLast attributes name value
  get : ∀ name value, t.get? name = some value ↔ Table.GivenLast attributes name value

section Tag

variable {t : Tag} {assignments : List Assignment}

theorem Tag.collects_ofLine (name : String) {body : String} (h : '=' ∈ body.toList) :
    (Tag.ofLine name (some body)).Collects (attributes body.toList) := by
  have hp : (Tag.ofLine name (some body)).params = .ofList (attributes body.toList) := if_pos h
  constructor
  · rw [hp, Table.keys_ofList]
  · intro k v
    rw [hp, Table.mem_entries_iff, Table.get?_ofList_iff]
  · intro k v
    rw [Tag.get?, hp, Table.get?_ofList_iff]

theorem Tag.nodup_assignments (t : Tag) : (t.assignments.map Assignment.name).Nodup := by
  rw [Tag.assignments, List.map_map]
  exact t.params.distinct

theorem Tag.assignments_of_action (h : t.action.assignments? = some assignments) :
    assignments = t.assignments := by
  unfold action interpret without toUnknown Action.assignments? at h
  grind

theorem exists_tag {s : List Char} (h : (actionOn s).assignments? = some assignments) :
    ∃ t : Tag, assignments = t.assignments := by
  rw [actionOn] at h
  split at h
  · exact ⟨_, Tag.assignments_of_action h⟩
  · cases h

theorem exists_tag_of_mem {id text : String} {a : Action}
    (ha : a ∈ (Program.parse id text).actions) (h : a.assignments? = some assignments) :
    ∃ t : Tag, assignments = t.assignments := by
  have hbare : a.bare.assignments? = some assignments := by
    cases a with
    | choices => cases h
    | _ => exact h
  have hm := List.mem_map_of_mem (f := Action.bare) ha
  rw [actions_parse] at hm
  obtain ⟨l, -, hl⟩ := List.mem_map.mp hm
  exact exists_tag (hl ▸ hbare)

end Tag

end Script

open Script

namespace Parser

/-- A tag has each of its parameters once, and the order of the variables that it sets or adds to
does not count. -/
theorem parse_parameters (q : Parser) (id text name : String) (body : Option String) :
    (Tag.ofLine name body).params.keys.Nodup ∧
    (∀ b, body = some b → '=' ∈ b.toList → (Tag.ofLine name body).Collects (attributes b.toList)) ∧
    ∀ a ∈ (q.parse id text).2.actions, ∀ assignments, a.assignments? = some assignments →
      Independent assignments := by
  refine ⟨(Tag.ofLine name body).params.distinct, ?_, ?_⟩
  · rintro b rfl h
    exact Tag.collects_ofLine name h
  · intro a ha assignments h
    rw [(q.parse_eq id text).1] at ha
    obtain ⟨t, rfl⟩ := exists_tag_of_mem ha h
    exact independent_of_nodup t.nodup_assignments

theorem parse_parameters_repeated :
    let body := "hp=10 name=\"Alice B\" hp=20"
    let text := "[var hp=10 name=\"Alice B\" hp=20]\n[add name=\"!\" hp=x name=\"?\"]"
    '=' ∈ body.toList ∧ (Tag.ofLine "var" (some body)).Collects (attributes body.toList) ∧
    (Tag.ofLine "var" (some body)).params.entries = [("hp", "20"), ("name", "Alice B")] ∧
    .addVariables [⟨"name", "?"⟩, ⟨"hp", "x"⟩] ∈ (fresh.parse "p" text).2.actions ∧
    Independent [⟨"name", "?"⟩, ⟨"hp", "x"⟩] := by
  intro body text
  obtain ⟨-, hcollects, hassigned⟩ := parse_parameters fresh "p" text "var" (some body)
  have hm : .addVariables [⟨"name", "?"⟩, ⟨"hp", "x"⟩] ∈ (fresh.parse "p" text).2.actions := by
    decide +kernel
  refine ⟨by decide, hcollects body rfl (by decide), by decide +kernel, hm, ?_⟩
  exact hassigned _ hm _ rfl

end Parser

end Dialogue
