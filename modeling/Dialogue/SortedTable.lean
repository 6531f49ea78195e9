namespace Dialogue

/-- Values under distinct names, in the order of the names. -/
structure SortedTable (α : Type) where
  entries : List (String × α)
  ascending : (entries.map Prod.fst).Pairwise (· < ·)
deriving DecidableEq, Repr

namespace SortedTable

variable {α : Type}

@[ext] theorem ext {t u : SortedTable α} (h : t.entries = u.entries) : t = u := by
  cases t; cases u; cases h; rfl

def empty : SortedTable α := ⟨[], .nil⟩

instance : Inhabited (SortedTable α) := ⟨empty⟩

def put (name : String) (value : α) : List (String × α) → List (String × α)
  | [] => [(name, value)]
  | e :: r =>
    if name < e.1 then (name, value) :: e :: r
    else if name = e.1 then (name, value) :: r
    else e :: put name value r

theorem mem_keys_put {name k : String} {value : α} {es : List (String × α)}
    (h : k ∈ (put name value es).map Prod.fst) : k = name ∨ k ∈ es.map Prod.fst := by
  induction es with
  | nil => simpa [put] using h
  | cons e r ih =>
    rw [put] at h
    split at h
    · simpa using h
    · split at h
      · rw [List.map_cons, List.mem_cons] at h
        exact h.imp_right (List.mem_cons_of_mem _)
      · rw [List.map_cons, List.mem_cons] at h
        rcases h with rfl | h
        · exact .inr List.mem_cons_self
        · exact (ih h).imp_right (List.mem_cons_of_mem _)

theorem ascending_put (name : String) (value : α) {es : List (String × α)}
    (h : (es.map Prod.fst).Pairwise (· < ·)) :
    ((put name value es).map Prod.fst).Pairwise (· < ·) := by
  induction es with
  | nil => exact List.pairwise_singleton _ _
  | cons e r ih =>
    rw [List.map_cons, List.pairwise_cons] at h
    rw [put]
    split
    · next hlt =>
      rw [List.map_cons, List.map_cons, List.pairwise_cons, List.pairwise_cons]
      refine ⟨?_, h⟩
      intro k hk
      rcases List.mem_cons.mp hk with rfl | hk
      · exact hlt
      · exact String.lt_trans hlt (h.1 k hk)
    · next hge =>
      split
      · next he =>
        rw [List.map_cons, List.pairwise_cons, he]
        exact h
      · next hne =>
        rw [List.map_cons, List.pairwise_cons]
        refine ⟨?_, ih h.2⟩
        intro k hk
        rcases mem_keys_put hk with rfl | hk
        · exact Std.lt_of_le_of_ne hge (Ne.symm hne)
        · exact h.1 k hk

def insert (t : SortedTable α) (name : String) (value : α) : SortedTable α :=
  ⟨put name value t.entries, ascending_put name value t.ascending⟩

def ofList (es : List (String × α)) : SortedTable α :=
  es.foldl (fun t e => t.insert e.1 e.2) empty

theorem put_of_forall_lt {name : String} {value : α} {es : List (String × α)}
    (h : ∀ k ∈ es.map Prod.fst, k < name) : put name value es = es ++ [(name, value)] := by
  induction es with
  | nil => rfl
  | cons e r ih =>
    rw [List.map_cons, List.forall_mem_cons] at h
    have hge : ¬ name < e.1 := fun hlt => Std.lt_irrefl (String.lt_trans h.1 hlt)
    have hne : name ≠ e.1 := fun he => Std.lt_irrefl (he ▸ h.1)
    rw [put, if_neg hge, if_neg hne, ih h.2, List.cons_append]

theorem entries_foldl_insert (t : SortedTable α) {es : List (String × α)}
    (h : ((t.entries ++ es).map Prod.fst).Pairwise (· < ·)) :
    (es.foldl (fun t e => t.insert e.1 e.2) t).entries = t.entries ++ es := by
  induction es generalizing t with
  | nil => exact (List.append_nil _).symm
  | cons e es ih =>
    have hp : (t.insert e.1 e.2).entries = t.entries ++ [e] := by
      apply put_of_forall_lt
      intro k hk
      rw [List.map_append, List.map_cons, List.pairwise_append] at h
      exact h.2.2 k hk e.1 List.mem_cons_self
    have hc : (t.insert e.1 e.2).entries ++ es = t.entries ++ e :: es := by
      rw [hp, List.append_assoc, List.singleton_append]
    rw [List.foldl_cons, ih _ (by rwa [hc]), hc]

theorem entries_ofList {es : List (String × α)} (h : (es.map Prod.fst).Pairwise (· < ·)) :
    (ofList es).entries = es :=
  entries_foldl_insert empty h

end SortedTable

end Dialogue
