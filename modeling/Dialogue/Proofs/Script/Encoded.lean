import Dialogue.Check.Analysis
import Dialogue.Encoding.Script
import Dialogue.Proofs.Json.Printed
import Dialogue.Proofs.Json.Records
import Dialogue.Proofs.Play.Calls
import Dialogue.Proofs.Script.Draft
import Dialogue.Proofs.Script.NormalForm
namespace Dialogue

open Json

theorem Gesture.decode?_encode (g : Gesture) : Gesture.decode? g.encode = some g := by
  cases g <;> rfl

theorem Entrance.proper_encode (e : Entrance) : e.encode.Proper :=
  proper_text _

theorem Gesture.proper_encode (g : Gesture) : g.encode.Proper :=
  proper_text _

theorem Gesture.encode_ne_null (g : Gesture) : g.encode ≠ .null := by
  intro h
  cases h

theorem ChoiceOption.decode?_encode (o : ChoiceOption) :
    ChoiceOption.decode? o.encode = some o := by
  rw [decode?, encode, fields?_record (by rfl) (by decide)]
  rfl

theorem ChoiceOption.proper_encode (o : ChoiceOption) : o.encode.Proper := by
  apply proper_record
  simp [proper_text]

theorem Assignment.decode?_encode (a : Assignment) : Assignment.decode? a.encode = some a := by
  rw [decode?, encode, fields?_record (by rfl) (by decide)]
  rfl

theorem Assignment.proper_encode (a : Assignment) : a.encode.Proper := by
  apply proper_record
  simp [proper_text]

theorem SortedTable.decode?_encode (t : SortedTable String) :
    SortedTable.decode? t.encode = some t := by
  have hm : (t.entries.map fun e => (e.1, text e.2)).mapM
      (fun m => m.2.text?.map (m.1, ·)) = some t.entries := by
    rw [mapM_map_eq_some (h := fun e => e), List.map_id']
    intro e _
    rfl
  rw [decode?, encode, object?_record, Option.bind_some, hm, Option.map_some]
  congr 1
  exact SortedTable.ext (entries_ofList t.ascending)

theorem SortedTable.proper_encode (t : SortedTable String) : t.encode.Proper := by
  apply proper_record
  rw [List.forall_mem_map]
  intro e _
  exact proper_text e.2

namespace Action

theorem decodeText?_record (make : String → Action) (field value : String) :
    decodeText? make field (record [(field, text value)]) = some (make value) := by
  rw [decodeText?, members?_record (by rfl) (List.pairwise_singleton _ field)]
  rfl

theorem decodeContents?_contents (a : Action) :
    decodeContents? a.caseName (record a.contents) = some a := by
  cases a with
  | label name => exact decodeText?_record label "name" name
  | goto target => exact decodeText?_record goto "target" target
  | message content => exact decodeText?_record message "content" content
  | speaker name => exact decodeText?_record speaker "name" name
  | background file => exact decodeText?_record background "file" file
  | showCharacter image actor entrance =>
    rw [caseName, contents, decodeContents?, members?_record (by rfl) (by decide)]
    cases entrance <;> rfl
  | removeCharacter actor exit =>
    rw [caseName, contents, decodeContents?, members?_record (by rfl) (by decide)]
    cases exit <;> rfl
  | gesture actor g =>
    have ho := optional_ofOption Gesture.decode?_encode Gesture.encode_ne_null g
    rw [caseName, contents, decodeContents?, members?_record (by rfl) (by decide)]
    simp only [List.map_cons, List.map_nil, ho]
    rfl
  | expression actor image =>
    rw [caseName, contents, decodeContents?, members?_record (by rfl) (by decide)]
    rfl
  | setVariables assignments =>
    rw [caseName, contents, decodeContents?, members?_record (by rfl) (by decide)]
    exact congrArg (Option.map setVariables)
      (list?_ofList fun a _ => Assignment.decode?_encode a)
  | addVariables assignments =>
    rw [caseName, contents, decodeContents?, members?_record (by rfl) (by decide)]
    exact congrArg (Option.map addVariables)
      (list?_ofList fun a _ => Assignment.decode?_encode a)
  | choices options =>
    rw [caseName, contents, decodeContents?, members?_record (by rfl) (by decide)]
    exact congrArg (Option.map choices) (list?_ofList fun o _ => ChoiceOption.decode?_encode o)
  | scene name script =>
    have ho := optional_ofOption (f := text?) (g := text) (fun _ => rfl) nofun script
    rw [caseName, contents, decodeContents?, members?_record (by rfl) (by decide)]
    simp only [List.map_cons, List.map_nil, ho]
    rfl
  | unknown tag params =>
    rw [caseName, contents, decodeContents?, members?_record (by rfl) (by decide)]
    simp only [List.map_cons, List.map_nil, required, Option.bind_some,
      SortedTable.decode?_encode params]
    rfl

theorem decode?_encode (a : Action) : decode? a.encode = some a := by
  rw [decode?, encode, case?_record]
  exact decodeContents?_contents a

theorem proper_contents (a : Action) : ∀ m ∈ a.contents, m.2.Proper := by
  cases a
  all_goals
    simp [contents, proper_text, proper_ofOption, proper_ofList, Entrance.proper_encode,
      Gesture.proper_encode, Assignment.proper_encode, ChoiceOption.proper_encode,
      SortedTable.proper_encode]

theorem proper_encode (a : Action) : a.encode.Proper := by
  apply proper_record
  rw [List.forall_mem_singleton]
  exact proper_record a.proper_contents

def print (a : Action) : String :=
  Json.print a.encode

def read? (text : String) : Option Action :=
  (Json.read? text).bind decode?

theorem read?_print (a : Action) : read? a.print = some a := by
  rw [read?, print, Json.read?_print a.proper_encode]
  exact decode?_encode a

example : print (.goto "a") = "\x7b\"Goto\":\x7b\"target\":\"a\"\x7d\x7d" := by decide +kernel

/-- What an action is written as is read as nothing else. -/
theorem read?_print_iff (a b : Action) : read? a.print = some b ↔ b = a := by
  rw [read?_print, Option.some_inj]
  exact eq_comm

theorem print_injective {a b : Action} (h : a.print = b.print) : a = b := by
  rw [← read?_print_iff, ← h]
  exact read?_print a

end Action

namespace Script

theorem length_unifyBreaks_le (s : List Char) : (unifyBreaks s).length ≤ s.length := by
  fun_induction unifyBreaks s with
  | case1 => exact Nat.le_refl _
  | case2 r ih =>
    simp only [List.length_cons]
    omega
  | case3 c r _ ih => exact Nat.succ_le_succ ih

theorem length_trimmedLines_le (text : String) : (trimmedLines text).length ≤ text.length + 1 := by
  rw [trimmedLines, List.length_zipIdx, List.length_map, normalize, String.toList_ofList]
  calc (Text.lines (linkShaken (unifyBreaks text.toList))).length
    _ ≤ (linkShaken (unifyBreaks text.toList)).count '\n' + 1 := Text.length_lines_le _
    _ = (unifyBreaks text.toList).count '\n' + 1 := by rw [count_linkShaken]
    _ ≤ (unifyBreaks text.toList).length + 1 := Nat.succ_le_succ List.count_le_length
    _ ≤ text.toList.length + 1 := Nat.succ_le_succ (length_unifyBreaks_le _)
    _ = text.length + 1 := by rw [String.length_toList]

theorem line_le {id text : String} {n : Nat} (h : n ∈ (Program.parse id text).lines) :
    n ≤ text.length + 1 := by
  rw [lines_parse] at h
  obtain ⟨l, hl, rfl⟩ := List.mem_map.mp h
  have hm := (List.mem_zipIdx (List.mem_filter.mp hl).1).2.1
  have hb := length_trimmedLines_le text
  rw [trimmedLines, List.length_zipIdx] at hb
  omega

end Script

namespace Program

/-- The ways in which a program comes about: its actions are given, or they are read from a text. -/
inductive Made : Program → Prop
  | ofActions (id : String) (actions : List Action) {lines : List Nat}
    (h : ∀ n ∈ lines, n < UInt64.size) : Made (.ofActions id actions lines)
  | parse (q : Parser) (id : String) {text : String} (h : text.length + 1 < UInt64.size) :
    Made (q.parse id text).2

def print (p : Program) : String :=
  Json.print p.encode

def read? (text : String) : Option Program :=
  (Json.read? text).bind decode?

/-- One program does what another one does. -/
structure Replaces (q p : Program) : Prop where
  id : q.id = p.id
  actions : q.actions = p.actions
  lines : q.lines = p.lines
  labels : q.labels = p.labels
  runs : ∀ (s : Store) (auto : Bool) (calls : List Call) (input : Option Input),
    ((Narrator.start q s auto).follow calls).tick input =
      ((Narrator.start p s auto).follow calls).tick input
  resets : ∀ n : Narrator, n.reset q = n.reset p
  remarks : q.analyze = p.analyze
  settled : q.index = q

variable {p : Program}

theorem Made.indexed (h : p.Made) : p.Indexed := by
  cases h with
  | ofActions id actions h => exact indexed_ofActions id actions _
  | parse q id h =>
    rw [(q.parse_eq id _).1]
    exact indexed_parse id _

theorem Made.lines_lt (h : p.Made) : ∀ n ∈ p.lines, n < UInt64.size := by
  cases h with
  | ofActions id actions h => exact h
  | parse q id h =>
    intro n hn
    rw [(q.parse_eq id _).1] at hn
    exact Nat.lt_of_le_of_lt (Script.line_le hn) h

theorem decode?_encode (h : ∀ n ∈ p.lines, n < UInt64.size) :
    decode? p.encode = some ⟨p.id, p.actions, p.lines, .empty⟩ := by
  have ha := list?_ofList fun a (_ : a ∈ p.actions) => Action.decode?_encode a
  have hl := list?_ofList fun n hn => nat?_nat (h n hn)
  rw [decode?, encode, fields?_record (by rfl) (by decide)]
  simp only [List.map_cons, List.map_nil, required, withDefault, Option.bind_some, ha, hl]
  rfl

theorem proper_encode (p : Program) : p.encode.Proper := by
  apply proper_record
  simp [proper_text, proper_ofList, proper_nat, Action.proper_encode]

theorem Made.read?_print (h : p.Made) :
    read? p.print = some ⟨p.id, p.actions, p.lines, .empty⟩ := by
  rw [read?, print, Json.read?_print p.proper_encode]
  exact decode?_encode h.lines_lt

theorem Indexed.replaces (h : p.Indexed) : p.Replaces p :=
  ⟨rfl, rfl, rfl, rfl, fun _ _ _ _ => rfl, fun _ => rfl, rfl, index_eq_self h⟩

/-- A program that is read from its own text has lost its labels and nothing else, and is restored
by counting them. -/
theorem reread (h : p.Made) :
    (∃ q, read? p.print = some q ∧ (∀ name, q.label? name = none) ∧ q.index.Replaces p) ∧
      (∀ a b, Action.read? (Action.print a) = some b ↔ b = a) ∧
      ∀ a b, Action.print a = Action.print b → a = b := by
  refine ⟨⟨_, h.read?_print, fun name => Table.get?_empty name, ?_⟩, Action.read?_print_iff, ?_⟩
  · have hi : index ⟨p.id, p.actions, p.lines, .empty⟩ = p := index_eq_self h.indexed
    rw [hi]
    exact h.indexed.replaces
  · intro a b
    exact Action.print_injective

/-- A label that is declared twice, and a tag and a gesture that nobody knows. -/
def fair : Program :=
  .ofActions "fair" [.label "gate", .message "Come in!", .label "gate", .gesture "Mia" none,
    .choices [⟨"Again", "gate"⟩], .unknown "bell" (.ofList [("times", "3")])] [1, 2, 4, 5, 6, 8]

theorem reread_fair : fair.Made ∧ ∃ q, read? fair.print = some q ∧ q.label? "gate" = none ∧
    q.index.label? "gate" = some 1 ∧ q.index.line? 2 = some 4 := by
  have hm : fair.Made := .ofActions "fair" _ (by decide)
  obtain ⟨⟨q, hq, hn, hr⟩, _⟩ := reread hm
  refine ⟨hm, q, hq, hn "gate", ?_, ?_⟩
  · rw [label?, hr.labels]
    rfl
  · rw [line?, hr.lines]
    rfl

end Program

end Dialogue
