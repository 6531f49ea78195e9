import Dialogue.Script.Parse
import Mathlib.Data.List.Infix
namespace Dialogue

namespace Text

def blanks : List Nat :=
  List.range' 9 5 ++ [0x20, 0x85, 0xA0, 0x1680] ++ List.range' 0x2000 11 ++
    [0x2028, 0x2029, 0x202F, 0x205F, 0x3000]

theorem mem_blanks {c : Char} (h : isBlank c = true) : c.toNat ∈ blanks := by
  simp only [isBlank, Bool.or_eq_true, Bool.and_eq_true, decide_eq_true_eq, beq_iff_eq] at h
  simp only [blanks, List.mem_append, List.mem_range'_1, List.mem_cons, List.not_mem_nil, or_false]
  omega

theorem isWord_blanks : ∀ n ∈ blanks, isWord (Char.ofNat n) = false := by
  decide +kernel

theorem not_isBlank_of_isWord {c : Char} (h : isWord c = true) : isBlank c = false := by
  rw [Bool.eq_false_iff]
  intro hb
  have hn := isWord_blanks c.toNat (mem_blanks hb)
  rw [Char.ofNat_toNat, h] at hn
  cases hn

theorem infix_append_cons {old a b : List Char} {c : Char} (hc : c ∉ old)
    (h : old <:+: a ++ c :: b) : old <:+: a ∨ old <:+: b := by
  obtain ⟨s, t, he⟩ := h
  rcases List.append_eq_append_iff.mp he with ⟨u, ha, _⟩ | ⟨u, hs, hu⟩
  · exact .inl ⟨s, u, ha.symm⟩
  rcases List.cons_eq_append_iff.mp hu with ⟨rfl, _⟩ | ⟨v, rfl, hb⟩
  · rw [List.append_nil] at hs
    exact .inl ⟨s, [], by rw [List.append_nil, hs]⟩
  rcases List.append_eq_append_iff.mp hs with ⟨w, _, ho⟩ | ⟨w, _, hw⟩
  · exact absurd (ho ▸ List.mem_append_right w List.mem_cons_self) hc
  rcases List.cons_eq_append_iff.mp hw with ⟨_, ho⟩ | ⟨x, _, hv⟩
  · exact absurd (ho ▸ List.mem_cons_self) hc
  · exact .inr ⟨x, t, by rw [hb, hv]⟩

theorem not_infix_append_cons {old a b : List Char} {c : Char} (hc : c ∉ old)
    (ha : ¬ old <:+: a) (hb : ¬ old <:+: b) : ¬ old <:+: a ++ c :: b := by
  intro h
  rcases infix_append_cons hc h with h | h
  · exact ha h
  · exact hb h

theorem not_infix_flatMap {old : List Char} {ls : List (List Char)} (hn : '\n' ∉ old)
    (hne : old ≠ []) (h : ∀ l ∈ ls, ¬ old <:+: l) :
    ¬ old <:+: ls.flatMap fun l => l ++ ['\n'] := by
  induction ls with
  | nil => exact fun hi => hne (List.infix_nil.mp hi)
  | cons l ls ih =>
    obtain ⟨hl, hls⟩ := List.forall_mem_cons.mp h
    rw [List.flatMap_cons, List.append_assoc, List.singleton_append]
    exact not_infix_append_cons hn hl (ih hls)

end Text

namespace Script

/-- Text that stays as it is when a script is read, and stays on its line. -/
@[mk_iff]
structure Inline (s : List Char) : Prop where
  cr : '\r' ∉ s
  lf : '\n' ∉ s
  opening : ¬ "<shake>".toList <:+: s
  closing : ¬ "</shake>".toList <:+: s

instance (s : List Char) : Decidable (Inline s) :=
  decidable_of_iff _ (inline_iff s).symm

section Inline

variable {a b : List Char} {c : Char}

theorem Inline.of_forall (h : ∀ c ∈ a, c ∉ ['<', '\r', '\n']) : Inline a := by
  have hm (c : Char) (hc : c ∈ ['<', '\r', '\n']) : c ∉ a := fun ha => h c ha hc
  refine ⟨hm _ (by decide), hm _ (by decide), ?_, ?_⟩
  · exact fun hi => hm '<' (by decide) (hi.subset (by decide))
  · exact fun hi => hm '<' (by decide) (hi.subset (by decide))

theorem Inline.nil : Inline [] :=
  .of_forall nofun

/-- Lines may be joined at any character that is no part of what is replaced in them. -/
theorem Inline.append_cons (ha : Inline a) (hb : Inline b)
    (hc : c ∉ "\r\n<shake></shake>".toList) : Inline (a ++ c :: b) := by
  have hne (d : Char) (hd : d ∈ "\r\n<shake></shake>".toList) : d ≠ c := by
    rintro rfl
    exact hc hd
  have ho (old : List Char) (hs : old ⊆ "\r\n<shake></shake>".toList) : c ∉ old :=
    fun h => hc (hs h)
  constructor
  · simp [ha.cr, hb.cr, hne '\r' (by decide)]
  · simp [ha.lf, hb.lf, hne '\n' (by decide)]
  · exact Text.not_infix_append_cons (ho _ (by decide)) ha.opening hb.opening
  · exact Text.not_infix_append_cons (ho _ (by decide)) ha.closing hb.closing

theorem linesOf_flatMap {ls : List (List Char)} (h : ∀ l ∈ ls, Inline l) :
    linesOf (String.ofList (ls.flatMap fun l => l ++ ['\n'])) = numberedLines 1 ls := by
  have hcr : '\r' ∉ ls.flatMap fun l => l ++ ['\n'] := by
    simp only [List.mem_flatMap, List.mem_append, List.mem_singleton, not_exists, not_and]
    rintro l hl (hm | hm)
    · exact (h l hl).cr hm
    · exact absurd hm (by decide)
  have ho := Text.not_infix_flatMap (by decide) (by decide) fun l hl => (h l hl).opening
  have hc := Text.not_infix_flatMap (by decide) (by decide) fun l hl => (h l hl).closing
  rw [linesOf, recognize, String.toList_ofList, unifyBreaks_eq_self hcr, linkShaken,
    Text.replace_eq_self _ ho, Text.replace_eq_self _ hc,
    Text.lines_flatMap fun l hl => (h l hl).lf]

end Inline

end Script

end Dialogue
