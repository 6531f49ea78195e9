import Dialogue.Text.Alphanumeric
namespace Dialogue.Script

/-- A value between two equal quotes, and the text behind it. -/
def quoted? : List Char → Option (List Char × List Char)
  | [] => none
  | q :: r =>
    if (q = '"' ∨ q = '\x27') ∧ q ∈ r then
      some (r.takeWhile (· != q), (r.dropWhile (· != q)).tail)
    else none

def endsBare (c : Char) : Bool :=
  c == ' ' || c == '\t' || c == ']'

def bare? (s : List Char) : Option (List Char × List Char) :=
  let value := s.takeWhile fun c => !endsBare c
  if value = [] then none else some (value, s.dropWhile fun c => !endsBare c)

/-- A quote that is not closed belongs to a value without quotes. -/
def value? (s : List Char) : Option (List Char × List Char) :=
  (quoted? s).or (bare? s)

structure AttributeMatch where
  name : List Char
  value : List Char
  rest : List Char

def attribute? (s : List Char) : Option AttributeMatch :=
  let name := s.takeWhile Text.isWord
  if name = [] then none
  else match s.dropWhile Text.isWord with
    | '=' :: r => (value? r).map fun v => ⟨name, v.1, v.2⟩
    | _ => none

theorem length_quoted? {s v r : List Char} (h : quoted? s = some (v, r)) : r.length < s.length := by
  cases s with
  | nil => cases h
  | cons q t =>
    rw [quoted?] at h
    split at h
    · cases h
      have := (List.dropWhile_sublist (l := t) (· != q)).length_le
      simp only [List.length_tail, List.length_cons]
      omega
    · cases h

theorem length_bare? {s v r : List Char} (h : bare? s = some (v, r)) : r.length ≤ s.length := by
  rw [bare?] at h
  split at h
  · cases h
  · cases h
    exact (List.dropWhile_sublist _).length_le

theorem length_value? {s v r : List Char} (h : value? s = some (v, r)) : r.length ≤ s.length := by
  rw [value?, Option.or_eq_some_iff] at h
  rcases h with h | ⟨_, h⟩
  · exact Nat.le_of_lt (length_quoted? h)
  · exact length_bare? h

theorem length_attribute? {s : List Char} {m : AttributeMatch} (h : attribute? s = some m) :
    m.rest.length < s.length := by
  rw [attribute?] at h
  split at h
  · cases h
  · split at h
    · next r hr =>
      obtain ⟨v, hv, rfl⟩ := Option.map_eq_some_iff.mp h
      have hd := (List.dropWhile_sublist (l := s) Text.isWord).length_le
      rw [hr, List.length_cons] at hd
      have := length_value? hv
      simp only
      omega
    · cases h

theorem attribute?_tail {c : Char} {r : List Char} (hc : Text.isWord c = true)
    (h : attribute? (c :: r) = none) : attribute? r = none := by
  unfold attribute? at h ⊢
  rw [List.takeWhile_cons_of_pos hc, List.dropWhile_cons_of_pos hc] at h
  dsimp only at h ⊢
  rw [if_neg (List.cons_ne_nil _ _)] at h
  split
  · rfl
  · split at h
    · rw [Option.map_eq_none_iff] at h ⊢
      exact h
    · rfl

/-- All names with their values, from the left; text between them is passed over, a word at a
time. -/
def attributes (s : List Char) : List (String × String) :=
  match s with
  | [] => []
  | c :: r =>
    match _h : attribute? (c :: r) with
    | some m => (String.ofList m.name, String.ofList m.value) :: attributes m.rest
    | none => if Text.isWord c then attributes (r.dropWhile Text.isWord) else attributes r
termination_by s.length
decreasing_by
  · exact length_attribute? (by assumption)
  · have := (List.dropWhile_sublist (l := r) Text.isWord).length_le
    simp only [List.length_cons]
    omega
  · simp

@[simp] theorem attributes_nil : attributes [] = [] := by
  rw [attributes]

theorem attributes_of_match {s : List Char} {m : AttributeMatch} (h : attribute? s = some m) :
    attributes s = (String.ofList m.name, String.ofList m.value) :: attributes m.rest := by
  cases s with
  | nil => cases h
  | cons c r =>
    rw [attributes]
    split
    · next m' h' => rw [h] at h'; cases h'; rfl
    · next h' => rw [h] at h'; cases h'

theorem attributes_skip {c : Char} {r : List Char} (h : attribute? (c :: r) = none) :
    attributes (c :: r) =
      if Text.isWord c then attributes (r.dropWhile Text.isWord) else attributes r := by
  rw [attributes]
  split
  · next m' h' => rw [h] at h'; cases h'
  · rfl

/-- Passing over a word at a time comes to the same as passing over a character at a time. -/
theorem attributes_of_no_match {c : Char} {r : List Char} (h : attribute? (c :: r) = none) :
    attributes (c :: r) = attributes r := by
  rw [attributes_skip h]
  split
  · next hc =>
    induction r generalizing c with
    | nil => rfl
    | cons d t ih =>
      have hd := attribute?_tail hc h
      by_cases hw : Text.isWord d = true
      · rw [List.dropWhile_cons_of_pos hw, attributes_skip hd, if_pos hw]
      · rw [List.dropWhile_cons_of_neg hw]
  · rfl

end Dialogue.Script
