import Dialogue.Text.Alphanumeric
import Dialogue.Text.Blank
import Dialogue.Text.Lines
namespace Dialogue.Script

def bracketed? : List Char → Option (List Char)
  | '[' :: r => if r.getLast? = some ']' then some r.dropLast else none
  | _ => none

def tagLine? (s : List Char) : Option (List Char × Option (List Char)) :=
  (bracketed? s).bind fun inner =>
    let name := inner.takeWhile Text.isWord
    if name = [] then none
    else match inner.dropWhile Text.isWord with
      | [] => some (name, none)
      | c :: r => if Text.isBlank c then some (name, some (Text.trim (c :: r))) else none

/-- A star, the text of the option, the first `>` that does not follow the star at once, and the
label. -/
def optionLine? : List Char → Option (List Char × List Char)
  | '*' :: c :: r =>
    match r.dropWhile (· != '>') with
    | [] => none
    | _ :: after =>
      let target := Text.trim after
      if target = [] then none
      else some (Text.trim (c :: r.takeWhile (· != '>')), target)
  | _ => none

inductive Line where
  | tag (name : String) (body : Option String)
  | option (text target : String)
  | prose (content : String)
deriving DecidableEq, Repr

def Line.classify (s : List Char) : Line :=
  match tagLine? s with
  | some (name, body) => .tag (String.ofList name) (body.map String.ofList)
  | none =>
    match optionLine? s with
    | some (text, target) => .option (String.ofList text) (String.ofList target)
    | none => .prose (String.ofList s)

/-- Reads a line without the white space around it; empty lines and comments say nothing. -/
def Line.ofText? (s : List Char) : Option Line :=
  match Text.trim s with
  | [] => none
  | c :: r => if c = '#' then none else some (classify (c :: r))

/-- The lines that say something, with their numbers from `start`. -/
def numberedLines (start : Nat) : List (List Char) → List (Nat × Line)
  | [] => []
  | s :: r =>
    match Line.ofText? s with
    | some line => (start, line) :: numberedLines (start + 1) r
    | none => numberedLines (start + 1) r

def recognize (text : List Char) : List (Nat × Line) :=
  numberedLines 1 (Text.lines text)

end Dialogue.Script
