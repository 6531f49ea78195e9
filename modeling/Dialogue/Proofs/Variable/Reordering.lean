import Dialogue.Proofs.Table
import Dialogue.Proofs.Variable.Addition
namespace Dialogue.Store

/-- Why an addition is refused, if it is. -/
def refusal? (s : Store) (name raw : String) : Option AddFault :=
  match s.add name raw with
  | .ok _ => none
  | .error fault => some fault

/-- The additions one after the other, each by its name and with why it is refused, if it is. -/
def answers (s : Store) : List Assignment → List (String × Option AddFault)
  | [] => []
  | a :: r => (a.name, s.refusal? a.name a.raw) :: answers (s.accumulate a.name a.raw) r

/-- What is done to a store for one assignment reads and changes no variable but its own. -/
structure Own (f : Store → Assignment → Store) : Prop where
  frame : ∀ s a name, name ≠ a.name → (f s a).get? name = s.get? name
  congr : ∀ s t a, s.get? a.name = t.get? a.name → (f s a).get? a.name = (f t a).get? a.name

section Addition

variable {s t : Store} {name raw : String}

theorem add_alike (h : s.get? name = t.get? name) (raw : String) :
    (∃ v, s.add name raw = .ok (s.insert name v) ∧ t.add name raw = .ok (t.insert name v)) ∨
    ∃ fault, s.add name raw = .error fault ∧ t.add name raw = .error fault := by
  cases hv : s.get? name with
  | none => exact .inl ⟨_, add_of_get?_none hv, add_of_get?_none (h ▸ hv)⟩
  | some v =>
    have hv' : t.get? name = some v := h ▸ hv
    cases hw : v.add raw with
    | ok w => exact .inl ⟨w, add_of_sum hv hw, add_of_sum hv' hw⟩
    | error refusal =>
      cases refusal with
      | typeMismatch => exact .inr ⟨_, add_of_mismatch hv hw, add_of_mismatch hv' hw⟩
      | overflow => exact .inr ⟨_, add_of_overflow hv hw, add_of_overflow hv' hw⟩

theorem refusal?_congr (h : s.get? name = t.get? name) (raw : String) :
    s.refusal? name raw = t.refusal? name raw := by
  rcases add_alike h raw with ⟨v, hs, ht⟩ | ⟨fault, hs, ht⟩
  · rw [refusal?, refusal?, hs, ht]
  · rw [refusal?, refusal?, hs, ht]

theorem get?_accumulate_congr (h : s.get? name = t.get? name) (raw : String) :
    (s.accumulate name raw).get? name = (t.accumulate name raw).get? name := by
  rcases add_alike h raw with ⟨v, hs, ht⟩ | ⟨fault, hs, ht⟩
  · rw [accumulate_of_ok hs, accumulate_of_ok ht, Table.get?_insert_self, Table.get?_insert_self]
  · rw [accumulate_of_error hs, accumulate_of_error ht, h]

theorem own_set : Own fun s a => s.set a.name a.raw where
  frame _ _ _ hn := Table.get?_insert_of_ne hn
  congr _ _ _ _ := by rw [get?_set, get?_set, if_pos rfl, if_pos rfl]

theorem own_accumulate : Own fun s a => s.accumulate a.name a.raw where
  frame _ _ _ := get?_accumulate_of_ne
  congr _ _ a h := get?_accumulate_congr h a.raw

end Addition

section Order

variable {f : Store → Assignment → Store} {s : Store} {a : Assignment} {name : String}
  {order assignments : List Assignment}

theorem name_ne_of_mem {b : Assignment} (hb : b.name ∉ assignments.map Assignment.name)
    (ha : a ∈ assignments) : a.name ≠ b.name := by
  intro he
  exact hb (he ▸ List.mem_map_of_mem ha)

theorem distinct_of_perm (hn : (assignments.map Assignment.name).Nodup)
    (hp : order.Perm assignments) : (order.map Assignment.name).Nodup :=
  (hp.map Assignment.name).nodup_iff.mpr hn

theorem Own.get?_foldl_of_not_mem (hf : Own f) (h : name ∉ assignments.map Assignment.name) :
    (assignments.foldl f s).get? name = s.get? name := by
  induction assignments generalizing s with
  | nil => rfl
  | cons b r ih =>
    rw [List.map_cons, List.mem_cons, not_or] at h
    rw [List.foldl_cons, ih h.2, hf.frame s b name h.1]

theorem Own.get?_foldl_of_mem (hf : Own f) (hn : (assignments.map Assignment.name).Nodup)
    (ha : a ∈ assignments) : (assignments.foldl f s).get? a.name = (f s a).get? a.name := by
  induction assignments generalizing s with
  | nil => cases ha
  | cons b r ih =>
    rw [List.map_cons, List.nodup_cons] at hn
    rw [List.foldl_cons]
    rcases List.mem_cons.mp ha with rfl | ha
    · exact hf.get?_foldl_of_not_mem hn.1
    · rw [ih hn.2 ha]
      exact hf.congr _ _ a (hf.frame s b a.name (name_ne_of_mem hn.1 ha))

/-- Under distinct names the order does not count. -/
theorem Own.perm_foldl (hf : Own f) (hn : (assignments.map Assignment.name).Nodup)
    (hp : order.Perm assignments) (s : Store) :
    (order.foldl f s).entries.Perm (assignments.foldl f s).entries := by
  apply Table.perm_entries
  intro name
  by_cases hm : name ∈ assignments.map Assignment.name
  · obtain ⟨a, ha, rfl⟩ := List.mem_map.mp hm
    rw [hf.get?_foldl_of_mem hn ha,
      hf.get?_foldl_of_mem (distinct_of_perm hn hp) (hp.mem_iff.mpr ha)]
  · have hm' : name ∉ order.map Assignment.name :=
      fun h => hm ((hp.map Assignment.name).mem_iff.mp h)
    rw [hf.get?_foldl_of_not_mem hm, hf.get?_foldl_of_not_mem hm']

theorem answers_of_distinct (hn : (assignments.map Assignment.name).Nodup) (s : Store) :
    s.answers assignments = assignments.map fun a => (a.name, s.refusal? a.name a.raw) := by
  induction assignments generalizing s with
  | nil => rfl
  | cons b r ih =>
    rw [List.map_cons, List.nodup_cons] at hn
    rw [answers, List.map_cons, ih hn.2]
    congr 1
    apply List.map_congr_left
    intro a ha
    rw [refusal?_congr (get?_accumulate_of_ne (name_ne_of_mem hn.1 ha))]

theorem perm_answers (hn : (assignments.map Assignment.name).Nodup) (hp : order.Perm assignments)
    (s : Store) : (s.answers order).Perm (s.answers assignments) := by
  rw [answers_of_distinct hn, answers_of_distinct (distinct_of_perm hn hp)]
  exact hp.map _

end Order

end Dialogue.Store
