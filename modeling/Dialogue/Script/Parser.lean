import Dialogue.Script.Parse
namespace Dialogue

/-- What a parser keeps from one line, and from one text, to the next. -/
structure Parser where
  warnings : List Script.Warning
  openChoice : Option Nat
  seen : List String
deriving DecidableEq, Repr

namespace Parser

def fresh : Parser :=
  ⟨[], none, []⟩

def reset (q : Parser) : Parser :=
  { q with warnings := [], openChoice := none, seen := [] }

/-- A text of which some lines have been read. -/
structure Draft where
  parser : Parser
  actions : List Action
  lines : List Nat

namespace Draft

def warn (d : Draft) (ws : List Script.Warning) : Draft :=
  { d with parser.warnings := d.parser.warnings ++ ws }

def add (d : Draft) (line : Nat) (a : Action) : Draft :=
  { d with actions := d.actions ++ [a], lines := d.lines ++ [line] }

/-- Notes what an action means for the lines behind it: a label is known, or a choice is open. -/
def note (d : Draft) (line : Nat) : Action → Draft
  | .label name =>
    let d := if name ∈ d.parser.seen then d.warn [.repeatedLabel line name] else d
    { d with parser.seen := name :: d.parser.seen }
  | .choices _ => { d with parser.openChoice := some d.actions.length }
  | _ => d

def takeTag (d : Draft) (line : Nat) (tag : Script.Tag) : Draft :=
  ((d.warn (tag.defects.map (.tag line tag.name))).note line tag.action).add line tag.action

/-- The choice that takes options, as it is so far. -/
def openOptions? (d : Draft) : Option (Nat × List ChoiceOption) :=
  d.parser.openChoice.bind fun i =>
    match d.actions[i]? with
    | some (.choices options) => some (i, options)
    | _ => none

def setOptions (d : Draft) (i : Nat) (options : List ChoiceOption) : Draft :=
  { d with actions := d.actions.set i (.choices options) }

def takeOption (d : Draft) (line : Nat) (text target : String) : Draft :=
  match d.openOptions? with
  | some (i, options) => d.setOptions i (options ++ [⟨text, target⟩])
  | none => d.warn [.strayOption line text target]

def take (d : Draft) : Nat × Script.Line → Draft
  | (n, .tag name body) => d.takeTag n (.ofLine name body)
  | (n, .option text target) => d.takeOption n text target
  | (n, .prose content) => d.add n (.message content)

end Draft

def parse (q : Parser) (id text : String) : Parser × Program :=
  let d := (Script.linesOf text).foldl Draft.take ⟨q.reset, [], []⟩
  (d.parser, .ofActions id d.actions d.lines)

end Parser

end Dialogue
