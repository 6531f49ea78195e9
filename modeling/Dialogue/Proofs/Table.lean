import Dialogue.Table
import Mathlib.Data.List.Induction
import Mathlib.Data.List.Nodup
namespace Dialogue.Table

/-- A list of pairs gives a name a value, and no pair behind gives it another one. -/
def GivenLast {α : Type} (es : List (String × α)) (name : String) (value : α) : Prop :=
  ∃ before after, es = before ++ (name, value) :: after ∧ ∀ e ∈ after, e.1 ≠ name

variable {α : Type} {t u : Table α} {es : List (String × α)} {name : String} {value : α}

section Entries

theorem find_eq_some_iff (hn : (es.map Prod.fst).Nodup) :
    find name es = some value ↔ (name, value) ∈ es := by
  induction es with
  | nil => simp [find]
  | cons e r ih =>
    rw [List.map_cons, List.nodup_cons] at hn
    rw [find, List.mem_cons, Prod.ext_iff]
    split
    · next he =>
      have hr : (name, value) ∉ r := fun hm => hn.1 (he ▸ List.mem_map_of_mem hm)
      simp [he, hr, eq_comm]
    · next he => simp [ih hn.2, Ne.symm he]

theorem mem_entries_iff (t : Table α) (name : String) (value : α) :
    (name, value) ∈ t.entries ↔ t.get? name = some value :=
  (find_eq_some_iff t.distinct).symm

theorem perm_entries (h : ∀ name, t.get? name = u.get? name) : t.entries.Perm u.entries := by
  have hnodup (t : Table α) : t.entries.Nodup := List.Nodup.of_map _ t.distinct
  rw [List.perm_ext_iff_of_nodup (hnodup t) (hnodup u)]
  rintro ⟨name, value⟩
  rw [mem_entries_iff, mem_entries_iff, h name]

end Entries

section Keys

theorem keys_put_of_mem (h : name ∈ es.map Prod.fst) :
    (put name value es).map Prod.fst = es.map Prod.fst := by
  induction es with
  | nil => cases h
  | cons e r ih =>
    rw [put]
    split
    · next he => rw [List.map_cons, List.map_cons, he]
    · next he =>
      rw [List.map_cons, List.mem_cons] at h
      rw [List.map_cons, List.map_cons, ih (h.resolve_left (Ne.symm he))]

theorem keys_insert (t : Table α) (name : String) (value : α) :
    (t.insert name value).keys = if name ∈ t.keys then t.keys else t.keys ++ [name] := by
  split
  · next h => exact keys_put_of_mem h
  · next h =>
    have hp : (t.insert name value).entries = t.entries ++ [(name, value)] := put_of_not_mem h
    rw [keys, hp, List.map_append, List.map_singleton, keys]

theorem ofList_concat (es : List (String × α)) (e : String × α) :
    ofList (es ++ [e]) = (ofList es).insert e.1 e.2 := by
  rw [ofList, List.foldl_append]
  rfl

/-- Names stand in the order in which they are first given. -/
theorem keys_ofList (es : List (String × α)) : (ofList es).keys = (es.map Prod.fst).eraseDups := by
  induction es using List.reverseRecOn with
  | nil => rfl
  | append_singleton es e ih =>
    rw [ofList_concat, keys_insert, ih, List.map_append, List.map_singleton, List.eraseDups_append]
    simp only [List.mem_eraseDups, List.removeAll]
    split
    · next h => simp [h]
    · next h => simp [h, List.eraseDups_cons]

theorem get?_ofList_iff (es : List (String × α)) (name : String) (value : α) :
    (ofList es).get? name = some value ↔ GivenLast es name value := by
  constructor
  · intro h
    induction es using List.reverseRecOn with
    | nil => cases h
    | append_singleton es e ih =>
      rw [ofList_concat, get?_insert] at h
      split at h
      · next hn =>
        cases h
        exact ⟨es, [], by rw [hn], nofun⟩
      · next hn =>
        obtain ⟨before, after, rfl, ha⟩ := ih h
        refine ⟨before, after ++ [e], by simp, ?_⟩
        intro f hf
        rcases List.mem_append.mp hf with hf | hf
        · exact ha f hf
        · rw [List.mem_singleton.mp hf]
          exact Ne.symm hn
  · rintro ⟨before, after, rfl, ha⟩
    rw [ofList, List.foldl_append, List.foldl_cons, get?_foldl_insert ha, get?_insert_self]

end Keys

end Dialogue.Table
