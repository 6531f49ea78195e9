import Dialogue.Proofs.Script.Draft
import Dialogue.Proofs.Script.LineGrammar
import Dialogue.Proofs.Text.Replacement
import Mathlib.Data.List.Chain
namespace Dialogue

namespace Script

open Text (Replaced replaced isBlank isWord trim)

section Linked

variable {s t : List Char} {c : Char}

/-- An equals sign comes directly behind a k, as the one of `<link=shake>` does. -/
def Linked (s : List Char) : Prop :=
  s.IsChain fun c d => d = '=' → c = 'k'

theorem linked_cons_iff {d : Char} : Linked (c :: d :: s) ↔ (d = '=' → c = 'k') ∧ Linked (d :: s) :=
  List.isChain_cons_cons

theorem linked_of_opening (h : Replaced "<shake>".toList "<link=shake>".toList s t)
    (he : '=' ∉ s) (c : Char) : Linked (c :: t) := by
  induction h generalizing c with
  | nil => exact List.isChain_singleton c
  | @keep d r t _ _ ih =>
    rw [List.mem_cons, not_or] at he
    rw [linked_cons_iff]
    exact ⟨fun hd => absurd hd.symm he.1, ih he.2 d⟩
  | @swap r t _ ih =>
    have ht : Linked ('>' :: t) := ih (fun hm => he (List.mem_append_right _ hm)) '>'
    simp [linked_cons_iff, ht]

theorem linked_of_closing (h : Replaced "</shake>".toList "</link>".toList s t)
    (hs : Linked (c :: s)) : Linked (c :: t) := by
  induction h generalizing c with
  | nil => exact hs
  | keep _ _ ih =>
    rw [linked_cons_iff] at hs ⊢
    exact ⟨hs.1, ih hs.2⟩
  | @swap r t _ ih =>
    have hr : Linked ('>' :: r) := by simpa [linked_cons_iff] using hs
    simp [linked_cons_iff, ih hr]

theorem linked_linkShaken (he : '=' ∉ s) (c : Char) : Linked (c :: linkShaken s) :=
  linked_of_closing (replaced _ (by decide) _)
    (linked_of_opening (replaced _ (by decide) s) he c)

end Linked

section Attribute

variable {s v r : List Char} {m : AttributeMatch}

theorem suffix_of_value? (h : value? s = some (v, r)) : r <:+ s := by
  rw [value?, Option.or_eq_some_iff] at h
  rcases h with h | ⟨-, h⟩
  · cases s with
    | nil => cases h
    | cons q t =>
      rw [quoted?] at h
      split at h
      · cases h
        exact (List.tail_suffix _).trans ((List.dropWhile_suffix _).trans (List.suffix_cons q t))
      · cases h
  · rw [bare?] at h
    split at h
    · cases h
    · cases h
      exact List.dropWhile_suffix _

theorem attribute?_eq_some (h : attribute? s = some m) :
    ∃ r, s = m.name ++ '=' :: r ∧ m.name ≠ [] ∧ m.rest <:+ r := by
  have hs : s.takeWhile isWord ++ s.dropWhile isWord = s := List.takeWhile_append_dropWhile
  rw [attribute?] at h
  split at h
  · cases h
  · next hne =>
    split at h
    · next r hr =>
      obtain ⟨v, hv, rfl⟩ := Option.map_eq_some_iff.mp h
      rw [hr] at hs
      exact ⟨r, hs.symm, hne, suffix_of_value? hv⟩
    · cases h

theorem Linked.suffix (h : Linked s) (hr : r <:+ s) : Linked r :=
  List.IsChain.infix h hr.isInfix

theorem Linked.exists_name (h : Linked (v ++ '=' :: r)) (hv : v ≠ []) : ∃ n, v = n ++ ['k'] := by
  obtain ⟨n, c, rfl⟩ := (List.eq_nil_or_concat v).resolve_left hv
  rw [List.concat_eq_append, List.append_assoc] at h
  have hc : c = 'k' := (linked_cons_iff.mp (h.suffix (List.suffix_append n _))).1 rfl
  rw [List.concat_eq_append, hc]
  exact ⟨n, rfl⟩

theorem Linked.attributes_name (h : Linked s) :
    ∀ e ∈ attributes s, ∃ n, e.1.toList = n ++ ['k'] := by
  obtain ⟨n, hn⟩ : ∃ n, s.length = n := ⟨_, rfl⟩
  induction n using Nat.strongRecOn generalizing s with
  | _ n ih =>
  subst hn
  cases s with
  | nil =>
    rw [attributes_nil]
    exact nofun
  | cons c s =>
    cases hm : attribute? (c :: s) with
    | none =>
      rw [attributes_of_no_match hm]
      exact ih _ (Nat.lt_succ_self _) (h.suffix (List.suffix_cons c s)) rfl
    | some m =>
      obtain ⟨r, hs, hne, hr⟩ := attribute?_eq_some hm
      rw [attributes_of_match hm, List.forall_mem_cons, String.toList_ofList]
      rw [hs] at h
      constructor
      · exact h.exists_name hne
      · apply ih _ (length_attribute? hm) _ rfl
        exact h.suffix (hr.trans ((List.suffix_cons '=' r).trans (List.suffix_append m.name _)))

end Attribute

def content (text : String) : String :=
  String.ofList (trim (Script.normalize text).toList)

section Line

variable {s a b : List Char} {c : Char}

theorem mem_linkShaken (hc : c ∈ linkShaken s) : c ∈ s ∨ c ∈ "<link=shake></link>".toList := by
  rcases (replaced _ (by decide) _).mem hc with hc | hc
  · rcases (replaced _ (by decide) _).mem hc with hc | hc
    · exact .inl hc
    · exact .inr (List.mem_append_left "</link>".toList hc)
  · exact .inr (List.mem_append_right "<link=shake>".toList hc)

theorem linkShaken_append_cons (hc : c ∉ "</shake>".toList) :
    linkShaken (a ++ c :: b) = linkShaken a ++ c :: linkShaken b := by
  have hs : "<shake>".toList ⊆ "</shake>".toList := by decide
  rw [linkShaken, Text.replace_append_cons (by decide) fun h => hc (hs h),
    Text.replace_append_cons (by decide) hc]
  rfl

theorem linkShaken_eq_self (h : '<' ∉ s) : linkShaken s = s := by
  have hn (old : List Char) (ho : '<' ∈ old) : ¬ old <:+: s := fun hi => h (hi.subset ho)
  rw [linkShaken, Text.replace_eq_self _ (hn _ (by decide)),
    Text.replace_eq_self _ (hn _ (by decide))]

theorem linkShaken_cons (hc : c ∉ "</shake>".toList) :
    linkShaken (c :: s) = c :: linkShaken s := by
  have h := linkShaken_append_cons (a := []) (b := s) hc
  rw [linkShaken_eq_self List.not_mem_nil] at h
  exact h

theorem mem_linkShaken_iff (he : '=' ∉ s) :
    '=' ∈ linkShaken s ↔ "<shake>".toList <:+: s := by
  constructor
  · intro h
    by_contra hi
    rw [linkShaken, Text.replace_eq_self _ hi] at h
    rcases (replaced _ (by decide) s).mem h with h | h
    · exact he h
    · exact absurd h (by decide)
  · intro h
    apply (replaced _ (by decide) _).mem_of_mem (by decide)
    exact (replaced _ (by decide) s).subset_of_occurrence (by decide) h (by decide)

theorem mem_dropWhile_iff {p : Char → Bool} (hc : p c = false) : c ∈ s.dropWhile p ↔ c ∈ s := by
  constructor
  · exact fun h => (List.dropWhile_sublist p).subset h
  · intro h
    rw [← List.takeWhile_append_dropWhile (p := p) (l := s), List.mem_append] at h
    apply h.resolve_left
    intro ht
    rw [List.all_eq_true.mp List.all_takeWhile c ht] at hc
    cases hc

theorem mem_trim_iff (hc : isBlank c = false) : c ∈ trim s ↔ c ∈ s := by
  rw [trim, Text.trimEnd, List.mem_reverse, mem_dropWhile_iff hc, List.mem_reverse,
    Text.trimStart, mem_dropWhile_iff hc]

theorem infix_trim (s : List Char) : trim s <:+: s := by
  obtain ⟨t, ht, -⟩ := Text.trimEnd_append_blank (Text.trimStart s)
  have hp : trim s <+: Text.trimStart s := ⟨t, ht.symm⟩
  exact hp.isInfix.trans (List.dropWhile_suffix _).isInfix

theorem linesOf_single {text : String} (hcr : '\r' ∉ text.toList) (hlf : '\n' ∉ text.toList) :
    linesOf text = numberedLines 1 [linkShaken text.toList] := by
  have hn : '\n' ∉ linkShaken text.toList := by
    intro h
    rcases mem_linkShaken h with h | h
    · exact hlf h
    · exact absurd h (by decide)
  rw [linesOf, recognize, unifyBreaks_eq_self hcr]
  by_cases hne : linkShaken text.toList = []
  · rw [hne]
    rfl
  · rw [Text.lines_eq_singleton hne hn]

def messageTag (text : String) : String :=
  "[msg " ++ text ++ "]"

theorem toList_messageTag (text : String) :
    (messageTag text).toList = '[' :: ("msg".toList ++ ' ' :: text.toList ++ [']']) := by
  simp [messageTag]

theorem linkShaken_messageTag (text : String) : linkShaken (messageTag text).toList =
    '[' :: ("msg".toList ++ ' ' :: linkShaken text.toList ++ [']']) := by
  rw [toList_messageTag, linkShaken_cons (by decide), linkShaken_append_cons (by decide),
    linkShaken_append_cons (by decide), linkShaken_eq_self (s := "msg".toList) (by decide),
    linkShaken_eq_self List.not_mem_nil]

theorem not_mem_messageTag {text : String} (hc : c ∉ text.toList) (ht : c ∉ "[msg ]".toList) :
    c ∉ (messageTag text).toList := by
  intro h
  rw [toList_messageTag] at h
  simp only [List.mem_append, List.mem_cons, List.not_mem_nil, or_false] at h
  rcases h with h | (h | h | h) | h
  · exact ht (h ▸ by decide)
  · exact ht (List.mem_cons_of_mem '[' (List.mem_append_left " ]".toList h))
  · exact ht (h ▸ by decide)
  · exact hc h
  · exact ht (h ▸ by decide)

theorem ofText?_messageTag (s : List Char) :
    Line.ofText? ('[' :: ("msg".toList ++ ' ' :: s ++ [']'])) =
      some (.tag "msg" (some (String.ofList (trim s)))) := by
  have hword : "msg".toList.all isWord = true := by decide
  have htag : TagLine ('[' :: ("msg".toList ++ ' ' :: s ++ [']'])) "msg".toList
      (some (trim (' ' :: s))) := .full (by decide) (List.all_eq_true.mp hword) (by decide)
  have htrim := Text.trim_eq_self ("msg".toList ++ ' ' :: s) (c := '[') (d := ']') (by decide)
    (by decide)
  rw [Text.trim_cons_blank s (by decide)] at htag
  rw [ofText?_eq_some_iff, htrim]
  exact .tag htag

theorem interpret_message (body : Option String) : (Tag.ofLine "msg" body).interpret =
    (.message (((Tag.ofLine "msg" body).get? "content").getD ""), []) := by
  have hl : Text.lowerAscii "msg" = "msg" := by decide +kernel
  have hn : (Tag.ofLine "msg" body).name = "msg" := hl
  simp [Tag.interpret, hn]

theorem get?_content (body : String) : ((Tag.ofLine "msg" (some body)).get? "content").getD "" =
    if '=' ∈ body.toList then ((Table.ofList (attributes body.toList)).get? "content").getD ""
    else body := by
  rw [Tag.get?, Tag.ofLine]
  dsimp only
  split
  · rfl
  · split
    · next h => rw [h]; rfl
    · rw [Table.get?_insert_self]
      rfl

end Line

end Script

open Script

/-- What a parser that has read a text makes of it: one message, and no warning. -/
def Parser.Tells (q : Parser) (text content : String) : Prop :=
  ∀ id, (q.parse id text).2 = .ofActions id [.message content] [1] ∧
    (q.parse id text).1.warnings = []

namespace Parser

theorem tells_of_lines (q : Parser) {text content : String} {line : Line}
    (hl : linesOf text = [(1, line)]) (hp : assemble [(1, line)] = ([(1, .message content)], []))
    (hw : Script.warnings [(1, line)] = []) : q.Tells text content := by
  intro id
  obtain ⟨hprogram, hwarnings⟩ := q.parse_eq id text
  rw [hprogram, hwarnings, Program.parse, Program.warnings, hl, hp, hw]
  exact ⟨rfl, rfl⟩

theorem tells_tag (q : Parser) {text body content : String}
    (hl : linesOf text = [(1, .tag "msg" (some body))])
    (hc : ((Tag.ofLine "msg" (some body)).get? "content").getD "" = content) :
    q.Tells text content := by
  have hi := interpret_message (some body)
  rw [hc] at hi
  apply q.tells_of_lines hl
  · simp [assemble, Tag.action, hi]
  · simp [Script.warnings, warningsFrom, Tag.action, Tag.defects, hi]

theorem tells_prose (q : Parser) {text content : String}
    (hl : linesOf text = [(1, .prose content)]) : q.Tells text content :=
  q.tells_of_lines hl rfl rfl

section Message

variable {b : String}

theorem linesOf_messageTag (hcr : '\r' ∉ b.toList) (hlf : '\n' ∉ b.toList) :
    linesOf (messageTag b) = [(1, .tag "msg" (some (content b)))] := by
  rw [linesOf_single (not_mem_messageTag hcr (by decide)) (not_mem_messageTag hlf (by decide)),
    linkShaken_messageTag, numberedLines, ofText?_messageTag, content, Script.normalize,
    unifyBreaks_eq_self hcr, String.toList_ofList]
  rfl

theorem mem_content_iff (he : '=' ∉ b.toList) (hcr : '\r' ∉ b.toList) :
    '=' ∈ (content b).toList ↔ "<shake>".toList <:+: b.toList := by
  rw [content, Script.normalize, String.toList_ofList, String.toList_ofList, mem_trim_iff (by decide),
    unifyBreaks_eq_self hcr, mem_linkShaken_iff he]

/-- The equals signs of the links make attributes of the text, none of which is the content. -/
theorem get?_attributes_content (he : '=' ∉ b.toList) (hcr : '\r' ∉ b.toList) :
    (Table.ofList (attributes (content b).toList)).get? "content" = none := by
  have hlinked : Linked (content b).toList := by
    rw [content, Script.normalize, String.toList_ofList, String.toList_ofList, unifyBreaks_eq_self hcr]
    apply List.IsChain.infix (linked_linkShaken he ' ')
    exact (infix_trim _).trans (List.suffix_cons _ _).isInfix
  apply Table.get?_ofList_eq_none
  intro e hm hc
  obtain ⟨n, hn⟩ := hlinked.attributes_name e hm
  rw [hc] at hn
  have hlast := congrArg List.getLast? hn
  rw [List.getLast?_concat] at hlast
  exact absurd hlast (by decide)

/-- A message tag around a text tells it as a line of its own would, unless the text is shaken. -/
theorem tells_message (q : Parser) (he : '=' ∉ b.toList) (hcr : '\r' ∉ b.toList)
    (hlf : '\n' ∉ b.toList) :
    (¬ "<shake>".toList <:+: b.toList → q.Tells (messageTag b) (content b)) ∧
    ("<shake>".toList <:+: b.toList → q.Tells (messageTag b) "") ∧
    ((∃ s, Line.ofText? (Script.normalize b).toList = some (.prose s)) → q.Tells b (content b)) := by
  have hl := linesOf_messageTag hcr hlf
  refine ⟨?_, ?_, ?_⟩
  · intro hs
    apply q.tells_tag hl
    rw [get?_content, if_neg (mt (mem_content_iff he hcr).mp hs)]
  · intro hs
    apply q.tells_tag hl
    rw [get?_content, if_pos ((mem_content_iff he hcr).mpr hs), get?_attributes_content he hcr]
    rfl
  · rintro ⟨s, hs⟩
    have hprose : s = content b := by
      cases ofText?_eq_some_iff.mp hs
      rfl
    apply q.tells_prose
    rw [linesOf_single hcr hlf]
    rw [Script.normalize, unifyBreaks_eq_self hcr, String.toList_ofList] at hs
    rw [numberedLines, hs, hprose]
    rfl

theorem tells_message_shaken : '=' ∉ "<shake>hi</shake>".toList ∧
    fresh.Tells (messageTag "<shake>hi</shake>") "" :=
  ⟨by decide, (tells_message fresh (by decide) (by decide) (by decide)).2.1 (by decide)⟩

/-- The text of a shaken message is lost. -/
theorem content_lost : content "<shake>hi</shake>" = "<link=shake>hi</link>" ∧
    (fresh.parse "p" (messageTag "<shake>hi</shake>")).2.actions = [.message ""] := by
  decide +kernel

end Message

end Parser

end Dialogue
