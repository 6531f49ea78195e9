import Dialogue.Proofs.Script.Assembly
import Dialogue.Proofs.Script.Written
namespace Dialogue

open Script

namespace Action

def attributes : Action → List Attribute
  | .label name => [.quote "name" name]
  | .goto target => [.quote "label" target]
  | .message content => [.quote "content" content]
  | .speaker name => [.quote "name" name]
  | .background file => [.quote "file" file]
  | .showCharacter image actor entrance =>
    [.quote "img" image, .quote "id" actor, .word "enter" entrance.name]
  | .removeCharacter actor exit => [.quote "target" actor, .word "exit" exit.name]
  | .gesture actor g? => .quote "target" actor :: (g?.map fun g => .word "anim" g.name).toList
  | .expression actor image => [.quote "target" actor, .quote "expr" image]
  | .setVariables assignments => assignments.map fun a => .quote a.name a.raw
  | .addVariables assignments => assignments.map fun a => .quote a.name a.raw
  | .choices _ => []
  | .scene file script => .quote "file" file :: (script.map (.quote "script")).toList
  | .unknown .. => []

def options : Action → List ChoiceOption
  | .choices options => options
  | _ => []

/-- The lines of an action: its tag and, below it, its options. -/
def written (a : Action) : List (List Char) :=
  tagText a.kind a.attributes :: a.options.map optionText

end Action

/-- The script of some actions: a line for each, and below a choice a line for each of its options.
-/
def Script.write (actions : List Action) : String :=
  String.ofList ((actions.flatMap Action.written).flatMap fun l => l ++ ['\n'])

namespace Action

def Assigns (assignments : List Assignment) : Prop :=
  (assignments.map Assignment.name).Nodup ∧ ∀ a ∈ assignments, IsName a.name ∧ Plain a.raw

/-- What survives in writing; an unknown tag means nothing and a gesture must be there. -/
def Writable : Action → Prop
  | .label s | .goto s | .message s | .speaker s | .background s => Plain s
  | .showCharacter image actor _ => Plain image ∧ Plain actor
  | .removeCharacter actor _ => Plain actor
  | .gesture actor g? => Plain actor ∧ g?.isSome
  | .expression actor image => Plain actor ∧ Plain image
  | .setVariables assignments | .addVariables assignments => Assigns assignments
  | .choices options => ∀ o ∈ options, Listed o
  | .scene file script => Plain file ∧ ∀ s ∈ script, Plain s
  | .unknown .. => False

instance (assignments : List Assignment) : Decidable (Assigns assignments) :=
  inferInstanceAs (Decidable (_ ∧ _))

instance (a : Action) : Decidable a.Writable :=
  match a with
  | .label s | .goto s | .message s | .speaker s | .background s =>
    inferInstanceAs (Decidable (Plain s))
  | .showCharacter image actor _ => inferInstanceAs (Decidable (Plain image ∧ Plain actor))
  | .removeCharacter actor _ => inferInstanceAs (Decidable (Plain actor))
  | .gesture actor g? => inferInstanceAs (Decidable (Plain actor ∧ g?.isSome))
  | .expression actor image => inferInstanceAs (Decidable (Plain actor ∧ Plain image))
  | .setVariables assignments | .addVariables assignments =>
    inferInstanceAs (Decidable (Assigns assignments))
  | .choices options => inferInstanceAs (Decidable (∀ o ∈ options, Listed o))
  | .scene file script => inferInstanceAs (Decidable (Plain file ∧ ∀ s ∈ script, Plain s))
  | .unknown .. => inferInstanceAs (Decidable False)

def kinds : List String :=
  ["label", "goto", "msg", "spk", "bg", "char", "remove", "action", "expr", "var", "add",
    "choices", "scene"]

/-- The names of the attributes with a meaning of their own. -/
def parameters : List String :=
  ["name", "label", "content", "file", "img", "id", "enter", "target", "exit", "anim", "expr",
    "script"]

theorem kinds_named : ∀ s ∈ kinds, IsName s ∧ Text.lowerAscii s = s := by
  decide +kernel

theorem parameters_named : ∀ s ∈ parameters, IsName s := by
  decide +kernel

variable {a : Action}

theorem kind_named (h : a.Writable) : IsName a.kind ∧ Text.lowerAscii a.kind = a.kind := by
  refine kinds_named _ ?_
  cases a with
  | unknown => exact h.elim
  | _ => simp [kind, kinds]

theorem attributes_sound (h : a.Writable) : ∀ x ∈ a.attributes, x.Sound := by
  have hn (s : String) (hs : s ∈ parameters) : IsName s := parameters_named s hs
  cases a with
  | label | goto | message | speaker | background =>
    exact List.forall_mem_singleton.mpr (Attribute.Sound.quote (hn _ (by decide)) h)
  | showCharacter image actor entrance =>
    rw [attributes, List.forall_mem_cons, List.forall_mem_cons, List.forall_mem_singleton]
    exact ⟨.quote (hn _ (by decide)) h.1, .quote (hn _ (by decide)) h.2,
      .word (hn _ (by decide)) entrance.isName_name⟩
  | removeCharacter actor exit =>
    rw [attributes, List.forall_mem_cons, List.forall_mem_singleton]
    exact ⟨.quote (hn _ (by decide)) h, .word (hn _ (by decide)) exit.isName_name⟩
  | gesture actor g? =>
    rw [attributes, List.forall_mem_cons]
    refine ⟨.quote (hn _ (by decide)) h.1, ?_⟩
    cases g? with
    | none => exact List.forall_mem_nil _
    | some g => exact List.forall_mem_singleton.mpr (.word (hn _ (by decide)) g.isName_name)
  | expression actor image =>
    rw [attributes, List.forall_mem_cons, List.forall_mem_singleton]
    exact ⟨.quote (hn _ (by decide)) h.1, .quote (hn _ (by decide)) h.2⟩
  | setVariables assignments | addVariables assignments =>
    rw [attributes, List.forall_mem_map]
    intro v hv
    obtain ⟨hn, hp⟩ := h.2 v hv
    exact Attribute.Sound.quote hn hp
  | choices | unknown => exact List.forall_mem_nil _
  | scene file script =>
    rw [attributes, List.forall_mem_cons]
    refine ⟨.quote (hn _ (by decide)) h.1, ?_⟩
    cases script with
    | none => exact List.forall_mem_nil _
    | some s => exact List.forall_mem_singleton.mpr (.quote (hn _ (by decide)) (h.2 s rfl))

theorem attributes_distinct (h : a.Writable) : (a.attributes.map Attribute.name).Nodup := by
  cases a with
  | setVariables assignments | addVariables assignments =>
    rw [attributes, List.map_map]
    exact h.1
  | gesture actor g? => cases g? <;> simp [attributes, Attribute.quote, Attribute.word]
  | scene file script => cases script <;> simp [attributes, Attribute.quote]
  | _ => simp [attributes, Attribute.quote, Attribute.word]

theorem action_ofLine (h : a.Writable) :
    (Tag.ofLine a.kind ((body? a.attributes).map String.ofList)).action = a.bare := by
  have hp : (Tag.ofLine a.kind ((body? a.attributes).map String.ofList)).params.entries =
      a.attributes.map fun x => (x.name, x.value) :=
    params_ofLine (attributes_sound h) (attributes_distinct h)
  have hn : (Tag.ofLine a.kind ((body? a.attributes).map String.ofList)).name = a.kind :=
    (kind_named h).2
  generalize Tag.ofLine a.kind ((body? a.attributes).map String.ofList) = t at hp hn
  cases a with
  | unknown => exact h.elim
  | setVariables assignments | addVariables assignments =>
    simp [Tag.action, Tag.interpret, hn, kind, Tag.assignments, hp, attributes, Attribute.quote,
      bare, Function.comp_def]
  | gesture actor g? =>
    obtain ⟨g, rfl⟩ := Option.isSome_iff_exists.mp h.2
    simp [Tag.action, Tag.interpret, hn, kind, Tag.get?, Table.get?, hp, attributes, Table.find,
      Attribute.quote, Attribute.word, Gesture.ofName?_name, bare]
  | scene file script =>
    cases script <;>
      simp [Tag.action, Tag.interpret, hn, kind, Tag.main?, Tag.get?, Table.get?, hp, attributes,
        Table.find, Attribute.quote, bare]
  | _ =>
    simp [Tag.action, Tag.interpret, hn, kind, Tag.main?, Tag.get?, Table.get?, hp, attributes,
      Table.find, Attribute.quote, Attribute.word, Tag.direction, Entrance.ofName?_name, bare]

theorem bare_or_choices (a : Action) : (∃ options, a = .choices options) ∨
    a.bare = a ∧ a.isChoices = false ∧ a.options = [] := by
  cases a with
  | choices options => exact .inl ⟨options, rfl⟩
  | _ => exact .inr ⟨rfl, rfl, rfl⟩

theorem listed_options (h : a.Writable) : ∀ o ∈ a.options, Listed o := by
  cases a with
  | choices options => exact h
  | _ => exact List.forall_mem_nil _

theorem inline_written (h : a.Writable) : ∀ l ∈ a.written, Inline l := by
  rw [written, List.forall_mem_cons, List.forall_mem_map]
  exact ⟨inline_tagText (kind_named h).1 (attributes_sound h),
    fun o ho => inline_optionText (listed_options h o ho)⟩

end Action

namespace Script

theorem numberedLines_cons {n : Nat} {s : List Char} {l : Line} (h : Line.ofText? s = some l)
    (ss : List (List Char)) : numberedLines n (s :: ss) = (n, l) :: numberedLines (n + 1) ss := by
  simp only [numberedLines, h]

theorem assemble_options {options : List ChoiceOption} (h : ∀ o ∈ options, Listed o) (n : Nat)
    (ss : List (List Char)) :
    assemble (numberedLines n (options.map optionText ++ ss)) =
      ((assemble (numberedLines (n + options.length) ss)).1,
        options ++ (assemble (numberedLines (n + options.length) ss)).2) := by
  induction options generalizing n with
  | nil => rfl
  | cons o options ih =>
    obtain ⟨ho, hos⟩ := List.forall_mem_cons.mp h
    have hl : (Line.option o.text o.target).option? = some o := rfl
    rw [List.map_cons, List.cons_append, numberedLines_cons (ofText?_optionText ho),
      assemble_option hl, ih hos, List.length_cons, Nat.add_right_comm, Nat.add_assoc n,
      List.cons_append]

theorem assemble_written {actions : List Action} (h : ∀ a ∈ actions, a.Writable) (n : Nat) :
    (assemble (numberedLines n (actions.flatMap Action.written))).1.map Prod.snd = actions ∧
      (assemble (numberedLines n (actions.flatMap Action.written))).2 = [] := by
  induction actions generalizing n with
  | nil => exact ⟨rfl, rfl⟩
  | cons a actions ih =>
    obtain ⟨ha, has⟩ := List.forall_mem_cons.mp h
    have htag := ofText?_tagText (Action.kind_named ha).1 (Action.attributes_sound ha)
    have hact : (Line.tag a.kind ((body? a.attributes).map String.ofList)).action? = some a.bare :=
      congrArg some (Action.action_ofLine ha)
    obtain ⟨hs, ho⟩ := ih has (n + 1 + a.options.length)
    rw [List.flatMap_cons, Action.written, List.cons_append, numberedLines_cons htag]
    rcases a.bare_or_choices with ⟨options, rfl⟩ | ⟨hb, hc, hn⟩
    · rw [assemble_choices hact rfl, assemble_options (Action.listed_options ha), List.map_cons,
        hs, ho, List.append_nil]
      exact ⟨rfl, rfl⟩
    · rw [hb] at hact
      rw [assemble_action hact hc, assemble_options (Action.listed_options ha), List.map_cons, hs,
        ho, hn]
      exact ⟨rfl, rfl⟩

end Script

/-- Reading undoes writing, whatever the parser has read before. -/
theorem Parser.parse_write (q : Parser) (id : String) {actions : List Action}
    (h : ∀ a ∈ actions, a.Writable) : (q.parse id (write actions)).2.actions = actions := by
  have hi : ∀ l ∈ actions.flatMap Action.written, Inline l := by
    intro l hl
    obtain ⟨a, ha, hl⟩ := List.mem_flatMap.mp hl
    exact Action.inline_written (h a ha) l hl
  rw [(q.parse_eq id _).1, Program.parse, Program.ofActions, write, linesOf_flatMap hi]
  exact (assemble_written h 1).1

def Script.awkward : List Action :=
  [.label "", .message "a ] b = 'c' > [d e=\u2028f", .showCharacter " #x" "* y > z" .bottomLeft,
    .setVariables [⟨"content", "k=v w"⟩, ⟨"_1", ""⟩, ⟨"名前", "<shake"⟩],
    .choices [⟨"", "]"⟩, ⟨"[x y=1] 'z", "> * #"⟩], .addVariables [], .gesture "'" (some .punch),
    .scene "</shake" (some "\t")]

theorem Parser.parse_awkward : (∀ a ∈ awkward, a.Writable) ∧
    (fresh.parse "awkward" (write awkward)).2.actions = awkward :=
  ⟨by decide +kernel, parse_write fresh "awkward" (by decide +kernel)⟩

end Dialogue
