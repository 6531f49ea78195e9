namespace Dialogue.Text

/-- White space: the blanks of ASCII, the next-line mark and the Unicode spaces and separators. -/
def isBlank (c : Char) : Bool :=
  let n := c.toNat
  (9 ≤ n && n ≤ 13) || n == 0x20 || n == 0x85 || n == 0xA0 || n == 0x1680 ||
    (0x2000 ≤ n && n ≤ 0x200A) || n == 0x2028 || n == 0x2029 || n == 0x202F || n == 0x205F ||
    n == 0x3000

def trimStart (s : List Char) : List Char :=
  s.dropWhile isBlank

def trimEnd (s : List Char) : List Char :=
  (s.reverse.dropWhile isBlank).reverse

def trim (s : List Char) : List Char :=
  trimEnd (trimStart s)

theorem trimEnd_append_blank (s : List Char) :
    ∃ t, s = trimEnd s ++ t ∧ t.all isBlank = true := by
  refine ⟨(s.reverse.takeWhile isBlank).reverse, ?_, ?_⟩
  · rw [trimEnd, ← List.reverse_append, List.takeWhile_append_dropWhile, List.reverse_reverse]
  · rw [List.all_reverse]
    exact List.all_takeWhile

theorem trimStart_eq_self {c : Char} {s : List Char} (h : isBlank c = false) :
    trimStart (c :: s) = c :: s := by
  simp [trimStart, h]

theorem trimStart_cons_blank {c : Char} (s : List Char) (h : isBlank c = true) :
    trimStart (c :: s) = trimStart s :=
  List.dropWhile_cons_of_pos h

theorem trimEnd_append_eq_self {c : Char} {s : List Char} (h : isBlank c = false) :
    trimEnd (s ++ [c]) = s ++ [c] := by
  simp [trimEnd, h]

theorem trimEnd_append_blank_eq {c : Char} (s : List Char) (h : isBlank c = true) :
    trimEnd (s ++ [c]) = trimEnd s := by
  simp [trimEnd, h]

theorem trim_cons_blank {c : Char} (s : List Char) (h : isBlank c = true) :
    trim (c :: s) = trim s := by
  rw [trim, trimStart_cons_blank s h, trim]

theorem trim_append_blank {c : Char} (s : List Char) (h : isBlank c = true) :
    trim (s ++ [c]) = trim s := by
  rw [trim, trimStart, List.dropWhile_append]
  split
  · next he =>
    rw [List.isEmpty_iff] at he
    rw [List.dropWhile_cons_of_pos h, trim, trimStart, he]
    rfl
  · exact trimEnd_append_blank_eq _ h

theorem trim_eq_self {c d : Char} (s : List Char) (hc : isBlank c = false)
    (hd : isBlank d = false) : trim (c :: (s ++ [d])) = c :: (s ++ [d]) := by
  rw [trim, trimStart_eq_self hc, ← List.cons_append, trimEnd_append_eq_self hd]

theorem trim_ends {s : List Char} (h : trim s ≠ []) :
    ∃ t d, trim s = t ++ [d] ∧ isBlank d = false := by
  cases hv : (trimStart s).reverse.dropWhile isBlank with
  | nil =>
    rw [trim, trimEnd, hv] at h
    exact absurd rfl h
  | cons d t =>
    refine ⟨t.reverse, d, ?_, ?_⟩
    · rw [trim, trimEnd, hv, List.reverse_cons]
    · have hd := List.head?_dropWhile_not isBlank (trimStart s).reverse
      rw [hv] at hd
      simpa using hd

end Dialogue.Text
