import Dialogue.Proofs.Script.Outline
import Dialogue.Proofs.Text.Replacement
namespace Dialogue.Script

/-- The kinds of line breaks: a carriage return with a line feed behind it, and each of the two by
itself. -/
inductive Break where
  | pair
  | carriageReturn
  | lineFeed

namespace Break

def text : Break → List Char
  | pair => ['\r', '\n']
  | carriageReturn => ['\r']
  | lineFeed => ['\n']

def At (s : List Char) (i : Nat) : Break → Prop
  | pair => s[i]? = some '\r' ∧ s[i + 1]? = some '\n'
  | carriageReturn => s[i]? = some '\r' ∧ s[i + 1]? ≠ some '\n'
  | lineFeed => s[i]? = some '\n' ∧ ¬ (0 < i ∧ s[i - 1]? = some '\r')

instance (s : List Char) (i : Nat) : (b : Break) → Decidable (b.At s i)
  | pair => inferInstanceAs (Decidable (_ ∧ _))
  | carriageReturn => inferInstanceAs (Decidable (_ ∧ _))
  | lineFeed => inferInstanceAs (Decidable (_ ∧ ¬ _))

def number (b : Break) (s : List Char) : Nat :=
  (List.range s.length).countP fun i => b.At s i

end Break

/-- A text in rows: the rows hold neither carriage returns nor line feeds, and behind each but the
last there is a break. -/
inductive Rows : List Char → List (List Char) → Prop
  | last {row} (hr : '\r' ∉ row) (hf : '\n' ∉ row) : Rows row [row]
  | next {row rest rows} (hr : '\r' ∉ row) (hf : '\n' ∉ row) (b : Break)
      (hb : b.At (row ++ b.text ++ rest) row.length) (h : Rows rest rows) :
      Rows (row ++ b.text ++ rest) (row :: rows)

section Breaks

variable {s row rest : List Char} {c : Char}

theorem count_eq_countP_range (c : Char) (s : List Char) :
    s.count c = (List.range s.length).countP fun i => s[i]? = some c := by
  induction s with
  | nil => rfl
  | cons d s ih =>
    rw [List.length_cons, List.range_succ_eq_map, List.countP_cons, List.countP_map,
      List.count_cons, ih]
    congr 1
    simp

theorem countP_and_not (p q : Nat → Prop) [DecidablePred p] [DecidablePred q] (l : List Nat) :
    l.countP (fun i => p i ∧ q i) + l.countP (fun i => p i ∧ ¬ q i) = l.countP fun i => p i := by
  rw [List.countP_eq_countP_filter_add l (fun i => decide (p i)) fun i => decide (q i),
    List.countP_filter, List.countP_filter]
  congr 2 <;> (funext i; simp)

theorem number_carriageReturn (s : List Char) :
    Break.pair.number s + Break.carriageReturn.number s = s.count '\r' := by
  rw [count_eq_countP_range]
  exact countP_and_not _ _ _

theorem number_pair_eq (s : List Char) : Break.pair.number s = (List.range s.length).countP fun i =>
    s[i]? = some '\n' ∧ (0 < i ∧ s[i - 1]? = some '\r') := by
  cases s with
  | nil => rfl
  | cons c s =>
    have hlast : ¬ Break.pair.At (c :: s) s.length := by simp [Break.At]
    rw [Break.number, List.length_cons, List.range_succ, List.countP_append, List.countP_singleton,
      if_neg (by rwa [decide_eq_true_eq]), ← List.range_succ, List.range_succ_eq_map,
      List.countP_cons, List.countP_map, if_neg (by simp)]
    apply List.countP_congr
    intro i _
    simp [Break.At, and_comm]

theorem number_lineFeed (s : List Char) :
    Break.pair.number s + Break.lineFeed.number s = s.count '\n' := by
  rw [count_eq_countP_range, number_pair_eq]
  exact countP_and_not _ _ _

theorem number_pair_cons (c : Char) (s : List Char) : Break.pair.number (c :: s) =
    Break.pair.number s + if c = '\r' ∧ s.head? = some '\n' then 1 else 0 := by
  have hnext : (List.range s.length).countP ((fun i => Break.pair.At (c :: s) i) ∘ Nat.succ) =
      Break.pair.number s := rfl
  rw [Break.number, List.length_cons, List.range_succ_eq_map, List.countP_cons, List.countP_map,
    hnext, List.head?_eq_getElem?]
  simp [Break.At]

theorem head?_ne_lineFeed (hp : ∀ t, c = '\r' → rest = '\n' :: t → False) (hc : c = '\r') :
    rest.head? ≠ some '\n' := by
  intro hr
  obtain ⟨t, rfl⟩ := List.head?_eq_some_iff.mp hr
  exact hp t hc rfl

theorem unifyBreaks_cons_of_ne (h : c ≠ '\r') : unifyBreaks (c :: s) = c :: unifyBreaks s := by
  rw [unifyBreaks, if_neg h]
  intro _ hc
  exact absurd hc h

/-- A line feed is written for each break, for which it takes the place of a pair or of a carriage
return. -/
theorem count_unifyBreaks (s : List Char) :
    (unifyBreaks s).count '\n' + Break.pair.number s = s.count '\r' + s.count '\n' := by
  fun_induction unifyBreaks s with
  | case1 => rfl
  | case2 r ih =>
    rw [number_pair_cons, if_pos ⟨rfl, rfl⟩, number_pair_cons,
      if_neg fun h => absurd h.1 (by decide), List.count_cons_self, List.count_cons_self,
      List.count_cons_of_ne (by decide), List.count_cons_of_ne (by decide), List.count_cons_self]
    omega
  | case3 c r hp ih =>
    have hn : ¬ (c = '\r' ∧ r.head? = some '\n') := fun h => head?_ne_lineFeed hp h.1 h.2
    rw [number_pair_cons, if_neg hn]
    by_cases hc : c = '\r'
    · subst hc
      rw [if_pos rfl, List.count_cons_self, List.count_cons_self, List.count_cons_of_ne (by decide)]
      omega
    · rw [if_neg hc, List.count_cons_of_ne hc, List.count_cons, List.count_cons]
      omega

theorem count_unifyBreaks_eq (s : List Char) : (unifyBreaks s).count '\n' =
    Break.pair.number s + Break.carriageReturn.number s + Break.lineFeed.number s := by
  have hu := count_unifyBreaks s
  have hr := number_carriageReturn s
  have hf := number_lineFeed s
  omega

theorem not_mem_unifyBreaks (s : List Char) : '\r' ∉ unifyBreaks s := by
  fun_induction unifyBreaks s with
  | case1 => exact List.not_mem_nil
  | case2 r ih => simpa using ih
  | case3 c r _ ih =>
    rw [List.mem_cons, not_or]
    refine ⟨?_, ih⟩
    split
    · decide
    · next hc => exact Ne.symm hc

/-- Pairs are replaced first, and then the carriage returns that are left. -/
theorem unifyBreaks_eq_replace (s : List Char) :
    unifyBreaks s = Text.replace ['\r'] ['\n'] (Text.replace ['\r', '\n'] ['\n'] s) := by
  have hreturn (t : List Char) :
      Text.replace ['\r'] ['\n'] ('\r' :: t) = '\n' :: Text.replace ['\r'] ['\n'] t :=
    Text.replace_append_left (List.cons_ne_nil _ _)
  have hother {c : Char} (hc : c ≠ '\r') (t : List Char) :
      Text.replace ['\r'] ['\n'] (c :: t) = c :: Text.replace ['\r'] ['\n'] t :=
    Text.replace_cons_of_not_isPrefix fun hp => hc (List.cons_prefix_cons.mp hp).1.symm
  fun_induction unifyBreaks s with
  | case1 => rw [Text.replace_nil, Text.replace_nil]
  | case2 r ih =>
    have hpair : Text.replace ['\r', '\n'] ['\n'] ('\r' :: '\n' :: r) =
        '\n' :: Text.replace ['\r', '\n'] ['\n'] r :=
      Text.replace_append_left (List.cons_ne_nil _ _)
    rw [ih, hpair, hother (by decide)]
  | case3 c r hp ih =>
    have hn : ¬ ['\r', '\n'] <+: c :: r := by
      rintro ⟨t, ht⟩
      injection ht with hc hr
      exact hp t hc.symm hr.symm
    rw [ih, Text.replace_cons_of_not_isPrefix hn]
    split
    · next hc => rw [hc, hreturn]
    · next hc => rw [hother hc]

theorem at_row_iff (b : Break) (hr : '\r' ∉ row) :
    b.At (row ++ b.text ++ rest) row.length ↔
      (b = .carriageReturn → rest.head? ≠ some '\n') := by
  have hnext : (row ++ ['\r'] ++ rest)[row.length + 1]? = rest.head? := by
    rw [List.getElem?_append_right (by simp)]
    simp [List.head?_eq_getElem?]
  cases b with
  | pair => simp [Break.At, Break.text]
  | carriageReturn => simp [Break.At, Break.text, ← hnext]
  | lineFeed =>
    have hlast : ¬ (0 < row.length ∧ (row ++ ['\n'] ++ rest)[row.length - 1]? = some '\r') := by
      rintro ⟨hpos, hc⟩
      rw [List.append_assoc, List.getElem?_append_left (by omega)] at hc
      exact hr (List.mem_of_getElem? hc)
    simpa [Break.At, Break.text] using hlast

theorem unifyBreaks_row (b : Break) (hr : '\r' ∉ row)
    (hb : b = .carriageReturn → rest.head? ≠ some '\n') :
    unifyBreaks (row ++ b.text ++ rest) = row ++ '\n' :: unifyBreaks rest := by
  induction row with
  | nil =>
    cases b with
    | pair => rw [Break.text, List.nil_append, List.cons_append, List.cons_append, List.nil_append,
        unifyBreaks, List.nil_append]
    | carriageReturn =>
      rw [Break.text, List.nil_append, List.singleton_append, unifyBreaks, if_pos rfl,
        List.nil_append]
      rintro t - rfl
      exact hb rfl rfl
    | lineFeed => exact unifyBreaks_cons_of_ne (by decide)
  | cons c row ih =>
    rw [List.mem_cons, not_or] at hr
    rw [List.cons_append, List.cons_append, unifyBreaks_cons_of_ne (Ne.symm hr.1), ih hr.2,
      List.cons_append]

theorem Rows.eq_splitOn {rows : List (List Char)} (h : Rows s rows) :
    rows = Text.splitOn '\n' (unifyBreaks s) := by
  induction h with
  | last hr hf => rw [unifyBreaks_eq_self hr, Text.splitOn_eq_singleton hf]
  | next hr hf b hb _ ih =>
    rw [unifyBreaks_row b hr ((at_row_iff b hr).mp hb), Text.splitOn_append_sep hf, ih]

theorem Rows.cons {rows : List (List Char)} (hr : c ≠ '\r') (hf : c ≠ '\n')
    (h : Rows s (row :: rows)) : Rows (c :: s) ((c :: row) :: rows) := by
  cases h with
  | last hrow hfeed => exact .last (by simp [Ne.symm hr, hrow]) (by simp [Ne.symm hf, hfeed])
  | next hrow hfeed b hb h =>
    have hrow' : '\r' ∉ c :: row := by simp [Ne.symm hr, hrow]
    have hb' := (at_row_iff b hrow').mpr ((at_row_iff b hrow).mp hb)
    exact .next hrow' (by simp [Ne.symm hf, hfeed]) b hb' h

theorem rows_splitOn (s : List Char) : Rows s (Text.splitOn '\n' (unifyBreaks s)) := by
  have hnext (b : Break) {r : List Char} (hb : b = .carriageReturn → r.head? ≠ some '\n')
      (h : Rows r (Text.splitOn '\n' (unifyBreaks r))) :
      Rows (b.text ++ r) ([] :: Text.splitOn '\n' (unifyBreaks r)) :=
    .next List.not_mem_nil List.not_mem_nil b
      ((at_row_iff b List.not_mem_nil).mpr hb) h
  fun_induction unifyBreaks s with
  | case1 => exact .last List.not_mem_nil List.not_mem_nil
  | case2 r ih =>
    rw [Text.splitOn_sep]
    exact hnext .pair nofun ih
  | case3 c r hp ih =>
    by_cases hr : c = '\r'
    · subst hr
      rw [if_pos rfl, Text.splitOn_sep]
      exact hnext .carriageReturn (fun _ => head?_ne_lineFeed hp rfl) ih
    rw [if_neg hr]
    by_cases hf : c = '\n'
    · subst hf
      rw [Text.splitOn_sep]
      exact hnext .lineFeed nofun ih
    · rw [Text.splitOn, if_neg hf]
      split
      · next hn => exact absurd hn (Text.splitOn_ne_nil _ _)
      · next row rows hrows =>
        rw [hrows] at ih
        exact ih.cons hr hf

theorem rows_iff {rows : List (List Char)} :
    Rows s rows ↔ rows = Text.splitOn '\n' (unifyBreaks s) :=
  ⟨Rows.eq_splitOn, fun h => h ▸ rows_splitOn s⟩

end Breaks

section Linked

variable {s : List Char}

theorem not_opening_linkShaken (s : List Char) : ¬ "<shake>".toList <:+: linkShaken s := by
  have ho : ¬ "<shake>".toList <:+: Text.replace "<shake>".toList "<link=shake>".toList s :=
    (Text.replaced _ (by decide) s).absent (c := '<') (p := "shake>".toList)
      (q := "link=shake>".toList) (by decide) (by decide) (by decide) (by decide) fun _ _ hp => hp
  -- The second replacement finds no opening mark, and writes none.
  exact (Text.replaced _ (by decide) _).absent (c := '<') (p := "shake>".toList)
    (q := "/link>".toList) (by decide) (by decide) (by decide) (by decide)
    fun _ hr hp => absurd (hp.isInfix.trans hr.isInfix) ho

theorem not_closing_linkShaken (s : List Char) : ¬ "</shake>".toList <:+: linkShaken s :=
  (Text.replaced _ (by decide) _).absent (c := '<') (p := "/shake>".toList)
    (q := "/link>".toList) (by decide) (by decide) (by decide) (by decide) fun _ _ hp => hp

theorem not_return_linkShaken (h : '\r' ∉ s) : '\r' ∉ linkShaken s := by
  have ho : '\r' ∉ Text.replace "<shake>".toList "<link=shake>".toList s :=
    Text.not_mem_replace (by decide) h (by decide)
  exact Text.not_mem_replace (by decide) ho (by decide)

theorem linkShaken_linkShaken (s : List Char) : linkShaken (linkShaken s) = linkShaken s := by
  rw [linkShaken, Text.replace_eq_self _ (not_opening_linkShaken s),
    Text.replace_eq_self _ (not_closing_linkShaken s)]

theorem splitOn_linkShaken (s : List Char) :
    Text.splitOn '\n' (linkShaken s) = (Text.splitOn '\n' s).map linkShaken := by
  rw [linkShaken, Text.splitOn_replace (by decide) (by decide) (by decide),
    Text.splitOn_replace (by decide) (by decide) (by decide), List.map_map]
  rfl

theorem count_linkShaken (s : List Char) : (linkShaken s).count '\n' = s.count '\n' := by
  have h := congrArg List.length (splitOn_linkShaken s)
  rw [List.length_map, Text.length_splitOn, Text.length_splitOn] at h
  exact Nat.succ.inj h

end Linked

/-- The rows of a text as they are read, without the white space around them, each with its number
from one. -/
def numberedRows (rows : List (List Char)) : List (List Char × Nat) :=
  (rows.map (Text.trim ∘ linkShaken)).zipIdx 1

section Numbers

theorem recognize_eq (s : List Char) : recognize s = numberedLines 1 (Text.splitOn '\n' s) := by
  rw [recognize, Text.lines]
  split
  · next hl =>
    obtain ⟨ss, hs⟩ := List.getLast?_eq_some_iff.mp hl
    rw [hs, List.dropLast_concat, numberedLines_eq, numberedLines_eq, List.map_append,
      List.zipIdx_append, List.filterMap_append]
    exact (List.append_nil _).symm
  · rfl

theorem linesOf_eq_rows (text : String) : linesOf text =
    (numberedRows (Text.splitOn '\n' (unifyBreaks text.toList))).filterMap numberedLine? := by
  rw [linesOf, recognize_eq, splitOn_linkShaken, numberedLines_eq, List.map_map, numberedRows]

theorem numbered_parse (q : Parser) (id text : String) {ls : List (List Char × Nat)}
    (h : linesOf text = ls.filterMap numberedLine?) :
    (q.parse id text).2.lines.zip ((q.parse id text).2.actions.map Action.bare) =
      (ls.filter fun l => acts l.1).map fun l => (l.2, actionOn l.1) := by
  rw [← actions_numbered, ← h, ← (assembled (ascending_linesOf text)).actions, (q.parse_eq id text).1,
    Program.parse, Program.ofActions, List.map_map, List.zip_map']
  rfl

end Numbers

/-- The normal form holds no carriage return and no shaken text, stays as it is, and keeps the rows
of the text. -/
theorem normal_form (q : Parser) (id text : String) :
    let s := (normalize text).toList
    s = Text.replace "</shake>".toList "</link>".toList
      (Text.replace "<shake>".toList "<link=shake>".toList
        (Text.replace "\r".toList "\n".toList
          (Text.replace "\r\n".toList "\n".toList text.toList))) ∧
    ('\r' ∉ s ∧ ¬ "<shake>".toList <:+: s ∧ ¬ "</shake>".toList <:+: s) ∧
    normalize (normalize text) = normalize text ∧
    s.count '\n' = Break.pair.number text.toList + Break.carriageReturn.number text.toList +
      Break.lineFeed.number text.toList ∧
    ∃ rows, (∀ others, Rows text.toList others ↔ others = rows) ∧
      Text.splitOn '\n' s = rows.map linkShaken ∧
      linesOf text = (numberedRows rows).filterMap numberedLine? ∧
      (q.parse id text).2.lines.zip ((q.parse id text).2.actions.map Action.bare) =
        (((numberedRows rows).filter fun l => acts l.1).map fun l => (l.2, actionOn l.1)) ∧
      (q.parse id text).1.warnings = warnings ((numberedRows rows).filterMap numberedLine?) := by
  intro s
  have hs : s = linkShaken (unifyBreaks text.toList) := String.toList_ofList
  have hreturn : '\r' ∉ s := hs ▸ not_return_linkShaken (not_mem_unifyBreaks _)
  refine ⟨?_, ⟨hreturn, ?_, ?_⟩, ?_, ?_, _, fun others => rows_iff, ?_, ?_, ?_, ?_⟩
  · rw [hs, unifyBreaks_eq_replace]
    rfl
  · exact hs ▸ not_opening_linkShaken _
  · exact hs ▸ not_closing_linkShaken _
  · change String.ofList (linkShaken (unifyBreaks s)) = String.ofList (linkShaken _)
    rw [unifyBreaks_eq_self hreturn, hs, linkShaken_linkShaken]
  · rw [hs, count_linkShaken, count_unifyBreaks_eq]
  · rw [hs, splitOn_linkShaken]
  · exact linesOf_eq_rows text
  · exact numbered_parse q id text (linesOf_eq_rows text)
  · rw [← linesOf_eq_rows, (q.parse_eq id text).2]
    rfl

/-- What is written for a mark makes no other mark of what stands around it. -/
example : normalize "a\r\r\n<sha<shake>ke>\rb</</shake>shake>\n" =
    "a\n\n<sha<link=shake>ke>\nb</</link>shake>\n" := by
  decide +kernel

end Dialogue.Script
