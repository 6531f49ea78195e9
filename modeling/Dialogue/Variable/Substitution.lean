import Dialogue.Variable.Store
namespace Dialogue

/-- The name in a placeholder whose opening brace has just been read, and the text behind it; a name
holds no brace. -/
def placeholder? : List Char → Option (List Char × List Char)
  | [] => none
  | c :: r =>
    if c = '}' then some ([], r)
    else if c = '{' then none
    else (placeholder? r).map fun p => (c :: p.1, p.2)

theorem placeholder?_eq_append {s name rest : List Char} (h : placeholder? s = some (name, rest)) :
    s = name ++ '}' :: rest := by
  induction s generalizing name with
  | nil => cases h
  | cons c r ih =>
    rw [placeholder?] at h
    split at h
    · next hc => cases h; rw [hc]; rfl
    · split at h
      · cases h
      · obtain ⟨p, hp, he⟩ := Option.map_eq_some_iff.mp h
        cases he
        rw [List.cons_append, ← ih hp]

/-- Writes values for the placeholders that `value` knows; inserted text is not read again. -/
def substituteWith (value : String → Option String) : List Char → List Char
  | [] => []
  | c :: r =>
    if c = '{' then
      match _h : placeholder? r with
      | some (name, rest) =>
        match value (String.ofList name) with
        | some text => text.toList ++ substituteWith value rest
        | none => '{' :: substituteWith value r
      | none => '{' :: substituteWith value r
    else c :: substituteWith value r
termination_by s => s.length
decreasing_by
  all_goals simp only [List.length_cons]
  · rw [placeholder?_eq_append _h, List.length_append, List.length_cons]
    omega
  all_goals omega

def Store.substitute (s : Store) (text : String) : String :=
  String.ofList (substituteWith (fun name => (s.get? name).map Value.text) text.toList)

@[simp] theorem substituteWith_nil (value : String → Option String) :
    substituteWith value [] = [] := by
  rw [substituteWith]

theorem substituteWith_cons_of_ne {value : String → Option String} {c : Char} {r : List Char}
    (h : c ≠ '{') : substituteWith value (c :: r) = c :: substituteWith value r := by
  rw [substituteWith, if_neg h]

end Dialogue
