import Dialogue.Text.Lines
namespace Dialogue.Path

/-- The names between the slashes, with empty ones for slashes side by side. -/
def pieces (path : String) : List String :=
  (Text.splitOn '/' path.toList).map String.ofList

/-- The steps of a path: slashes side by side count once, and a dot counts only in front. -/
def components (path : String) : List String :=
  match pieces path with
  | [] => []
  | first :: rest =>
    let rest := rest.filter fun p => p != "" && p != "."
    if first = "" then (if path = "" then [] else "/" :: rest) else first :: rest

def isAbsolute (path : String) : Bool :=
  path.toList.head? == some '/'

/-- Appends a path; one that is absolute stands for itself. -/
def join (path sub : String) : String :=
  if isAbsolute sub then sub
  else match path.toList.getLast? with
    | none => sub
    | some c => if c = '/' then path ++ sub else path ++ "/" ++ sub

def fileName? (path : String) : Option String :=
  match (components path).getLast? with
  | some "/" => none
  | some "." => none
  | some ".." => none
  | name => name

/-- The parts of a file name before and behind its last dot; a dot in front divides nothing. -/
def splitName (name : String) : String × Option String :=
  let cs := name.toList
  let extension := (cs.reverse.takeWhile (· != '.')).reverse
  let stem := cs.take (cs.length - extension.length - 1)
  if stem = [] then (name, none) else (String.ofList stem, some (String.ofList extension))

def stem? (path : String) : Option String :=
  (fileName? path).map fun name => (splitName name).1

def extension? (path : String) : Option String :=
  (fileName? path).bind fun name => (splitName name).2

def trimEnd : List String → List String
  | [] => []
  | p :: r =>
    match trimEnd r with
    | [] => if p = "" ∨ p = "." then [] else [p]
    | r => p :: r

def upToDot (path : String) : String :=
  match extension? path with
  | none => path
  | some extension =>
    let cs := path.toList
    String.ofList (cs.take (cs.length - extension.length))

/-- Writes an extension, or none, behind the stem of the file name; a path without a file name
stays. -/
def setExtension (path extension : String) : String :=
  match stem? path with
  | none => path
  | some stem =>
    let name := if extension = "" then stem else stem ++ "." ++ extension
    "/".intercalate ((trimEnd (pieces path)).dropLast ++ [name])

/-- Writes another extension in place of the one of the path, which goes first: without it `..a` is
`..`. -/
def withExtension (path extension : String) : String :=
  setExtension (upToDot path) extension

def le (p q : String) : Bool :=
  !List.lex (components q) (components p) fun s t => s < t

end Dialogue.Path
