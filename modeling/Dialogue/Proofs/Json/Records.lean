import Dialogue.Json.Value
namespace Dialogue

theorem mapM_map_eq_some {α β γ : Type} {f : β → Option γ} {g : α → β} {h : α → γ} {xs : List α}
    (hf : ∀ a ∈ xs, f (g a) = some (h a)) : (xs.map g).mapM f = some (xs.map h) := by
  induction xs with
  | nil => rfl
  | cons a xs ih =>
    rw [List.forall_mem_cons] at hf
    rw [List.map_cons, List.mapM_cons, hf.1, ih hf.2]
    rfl

namespace Json

variable {ms : List (String × Json)}

theorem object?_record (ms : List (String × Json)) : (record ms).object? = some ms := by
  rw [record, object?, mapM_map_eq_some (h := fun m => m), List.map_id']
  intro m _
  rfl

theorem filter_key {name : String} {value : Json} (hd : (ms.map Prod.fst).Nodup)
    (hm : (name, value) ∈ ms) : ms.filter (·.1 = name) = [(name, value)] := by
  induction ms with
  | nil => cases hm
  | cons m ms ih =>
    rw [List.map_cons, List.nodup_cons] at hd
    rw [List.filter_cons]
    cases List.mem_cons.mp hm with
    | inl he =>
      subst he
      have hr : ms.filter (·.1 = name) = [] := by
        rw [List.filter_eq_nil_iff]
        intro m hm he
        have hk : m.1 = name := of_decide_eq_true he
        have hn : m.1 ∈ ms.map Prod.fst := List.mem_map_of_mem hm
        exact hd.1 (hk ▸ hn)
      rw [if_pos (decide_eq_true rfl), hr]
    | inr hr =>
      have hne : ¬ decide (m.1 = name) = true := by
        intro he
        have hk : m.1 = name := of_decide_eq_true he
        have hn : (name, value).1 ∈ ms.map Prod.fst := List.mem_map_of_mem hr
        exact hd.1 (hk ▸ hn)
      rw [if_neg hne, ih hd.2 hr]

/-- An object with distinct keys is read back member by member. -/
theorem members?_record {names : List String} (hn : ms.map Prod.fst = names) (hd : names.Nodup) :
    (record ms).members? names = some (ms.map fun m => some m.2) := by
  subst hn
  rw [members?, object?_record, Option.bind_some]
  apply mapM_map_eq_some
  intro m hm
  rw [member?, filter_key hd hm]

theorem fields?_record {names : List String} (hn : ms.map Prod.fst = names) (hd : names.Nodup) :
    (record ms).fields? names = some (ms.map fun m => some m.2) :=
  members?_record hn hd

theorem case?_record (name : String) (contents : Json) :
    (record [(name, contents)]).case? = some (name, some contents) := by
  rw [case?, object?_record]
  intro s hs
  cases hs

theorem optional_ofOption {α : Type} {f : Json → Option α} {g : α → Json}
    (h : ∀ a, f (g a) = some a) (hn : ∀ a, g a ≠ .null) (o : Option α) :
    optional f (some (ofOption g o)) = some o := by
  cases o with
  | none => rfl
  | some a =>
    rw [optional, ofOption, option?, h, Option.map_some]
    exact hn a

theorem list?_ofList {α : Type} {f : Json → Option α} {g : α → Json} {xs : List α}
    (h : ∀ a ∈ xs, f (g a) = some a) : (ofList g xs).list? f = some xs := by
  rw [ofList, list?, array?, Option.bind_some, mapM_map_eq_some h, List.map_id']

theorem nat?_nat {n : Nat} (h : n < UInt64.size) : (nat n).nat? = some n :=
  JsonNumber.nat?_ofNat h

end Json

end Dialogue
