namespace Dialogue

/-- Values under distinct names, in the order in which the names were first given. -/
structure Table (α : Type) where
  entries : List (String × α)
  distinct : (entries.map Prod.fst).Nodup
deriving DecidableEq, Repr

namespace Table

variable {α : Type}

def empty : Table α := ⟨[], .nil⟩

instance : Inhabited (Table α) := ⟨empty⟩

def keys (t : Table α) : List String :=
  t.entries.map Prod.fst

def size (t : Table α) : Nat :=
  t.entries.length

def find (name : String) : List (String × α) → Option α
  | [] => none
  | e :: r => if e.1 = name then some e.2 else find name r

def get? (t : Table α) (name : String) : Option α :=
  find name t.entries

def contains (t : Table α) (name : String) : Bool :=
  (t.get? name).isSome

def put (name : String) (value : α) : List (String × α) → List (String × α)
  | [] => [(name, value)]
  | e :: r => if e.1 = name then (name, value) :: r else e :: put name value r

theorem mem_keys_put {name k : String} {value : α} {es : List (String × α)} :
    k ∈ (put name value es).map Prod.fst ↔ k = name ∨ k ∈ es.map Prod.fst := by
  induction es with
  | nil => simp [put]
  | cons e r ih =>
    rw [put]
    split
    · next h => subst h; simp
    · simp only [List.map_cons, List.mem_cons, ih]
      exact or_left_comm

theorem put_distinct {name : String} {value : α} {es : List (String × α)}
    (h : (es.map Prod.fst).Nodup) : ((put name value es).map Prod.fst).Nodup := by
  induction es with
  | nil => simp [put]
  | cons e r ih =>
    rw [put]
    rw [List.map_cons, List.nodup_cons] at h
    split
    · next he => subst he; simpa using h
    · next he =>
      rw [List.map_cons, List.nodup_cons]
      refine ⟨fun hm => ?_, ih h.2⟩
      rcases mem_keys_put.mp hm with hm | hm
      · exact he hm
      · exact h.1 hm

theorem find_put (name k : String) (value : α) (es : List (String × α)) :
    find k (put name value es) = if k = name then some value else find k es := by
  induction es with
  | nil => simp [put, find, eq_comm]
  | cons e r ih =>
    rw [put]
    split
    · next he =>
      subst he
      by_cases h : k = e.1
      · simp [find, h]
      · simp [find, h, Ne.symm h]
    · next he =>
      by_cases hk : e.1 = k
      · have hne : k ≠ name := fun h => he (hk.trans h)
        simp [find, hk, hne]
      · simp [find, hk, ih]

def insert (t : Table α) (name : String) (value : α) : Table α :=
  ⟨put name value t.entries, put_distinct t.distinct⟩

def insertNew (t : Table α) (name : String) (value : α) : Table α :=
  if t.contains name then t else t.insert name value

/-- The table of a list of pairs, in which the last value of a name counts. -/
def ofList (es : List (String × α)) : Table α :=
  es.foldl (fun t e => t.insert e.1 e.2) empty

theorem put_of_not_mem {name : String} {value : α} {es : List (String × α)}
    (h : name ∉ es.map Prod.fst) : put name value es = es ++ [(name, value)] := by
  induction es with
  | nil => rfl
  | cons e r ih =>
    rw [List.map_cons, List.mem_cons, not_or] at h
    rw [put, if_neg (Ne.symm h.1), ih h.2, List.cons_append]

theorem entries_foldl_insert (t : Table α) {es : List (String × α)}
    (h : ((t.entries ++ es).map Prod.fst).Nodup) :
    (es.foldl (fun t e => t.insert e.1 e.2) t).entries = t.entries ++ es := by
  induction es generalizing t with
  | nil => exact (List.append_nil _).symm
  | cons e es ih =>
    have hp : (t.insert e.1 e.2).entries = t.entries ++ [e] := by
      refine put_of_not_mem fun hm => ?_
      rw [List.map_append, List.map_cons, List.nodup_append] at h
      exact h.2.2 _ hm _ List.mem_cons_self rfl
    have hc : (t.insert e.1 e.2).entries ++ es = t.entries ++ e :: es := by
      rw [hp, List.append_assoc, List.singleton_append]
    rw [List.foldl_cons, ih _ (by rwa [hc]), hc]

theorem entries_ofList {es : List (String × α)} (h : (es.map Prod.fst).Nodup) :
    (ofList es).entries = es :=
  entries_foldl_insert empty h

@[simp] theorem get?_empty (k : String) : (empty : Table α).get? k = none := rfl

theorem get?_insert (t : Table α) (name k : String) (value : α) :
    (t.insert name value).get? k = if k = name then some value else t.get? k :=
  find_put name k value t.entries

@[simp] theorem get?_insert_self (t : Table α) (name : String) (value : α) :
    (t.insert name value).get? name = some value := by
  simp [get?_insert]

theorem get?_insert_of_ne {t : Table α} {name k : String} {value : α} (h : k ≠ name) :
    (t.insert name value).get? k = t.get? k := by
  simp [get?_insert, h]

theorem get?_foldl_insert {t : Table α} {es : List (String × α)} {name : String}
    (h : ∀ e ∈ es, e.1 ≠ name) :
    (es.foldl (fun t e => t.insert e.1 e.2) t).get? name = t.get? name := by
  induction es generalizing t with
  | nil => rfl
  | cons e es ih =>
    obtain ⟨he, hes⟩ := List.forall_mem_cons.mp h
    rw [List.foldl_cons, ih hes, get?_insert_of_ne (Ne.symm he)]

theorem get?_ofList_eq_none {es : List (String × α)} {name : String}
    (h : ∀ e ∈ es, e.1 ≠ name) : (ofList es).get? name = none :=
  get?_foldl_insert h

theorem get?_insertNew (t : Table α) (name k : String) (value : α) :
    (t.insertNew name value).get? k =
      if k = name ∧ t.get? name = none then some value else t.get? k := by
  rw [insertNew, contains]
  cases h : t.get? name with
  | none => simp [get?_insert]
  | some v => simp

end Table

end Dialogue
