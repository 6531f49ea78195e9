import Dialogue.Files.Path
namespace Dialogue

inductive Node where
  | file (bytes : ByteArray)
  | dir (entries : List (String × Node))

inductive ReadFault where
  | notFound
  | notADirectory
  | isADirectory
  | nameTooLong
  | badName
  | invalidText
deriving DecidableEq, Repr

def ReadFault.message : ReadFault → String
  | .notFound => "No such file or directory (os error 2)"
  | .notADirectory => "Not a directory (os error 20)"
  | .isADirectory => "Is a directory (os error 21)"
  | .nameTooLong => "File name too long (os error 36)"
  | .badName => "file name contained an unexpected NUL byte"
  | .invalidText => "stream did not contain valid UTF-8"

namespace Node

/-- Follows a path from a directory; `above` holds the directories on the way to it. -/
def descend (above : List Node) (here : Node) : List String → Except ReadFault Node
  | [] => .ok here
  | name :: r =>
    match here with
    | .file _ => .error .notADirectory
    | .dir entries =>
      if name = "" ∨ name = "." then descend above here r
      else if name = ".." then
        match above with
        -- What lies above them all is a directory in which nothing is found.
        | [] => descend [] (.dir []) r
        | up :: above => descend above up r
      else if 255 < name.utf8ByteSize then .error .nameTooLong
      else match entries.lookup name with
        | some node => descend (here :: above) node r
        | none => .error .notFound

def isFile : Node → Bool
  | .file _ => true
  | .dir _ => false

def isDir : Node → Bool
  | .file _ => false
  | .dir _ => true

mutual

def filesBelow (path : String) : Node → List String
  | .file _ => [path]
  | .dir entries => filesIn path entries

def filesIn (path : String) : List (String × Node) → List String
  | [] => []
  | (name, node) :: r => filesBelow (Path.join path name) node ++ filesIn path r

end

def put (node : Node) : List String → Node → Node
  | [], _ => node
  | name :: r, .dir entries =>
    let inner := (entries.lookup name).getD (.dir [])
    .dir (entries.filter (·.1 != name) ++ [(name, put node r inner)])
  | _, here => here

end Node

structure Disk where
  at? : String → Except ReadFault Node

namespace Disk

/-- A disk with one tree, in which paths are followed from the root of the tree. -/
def ofTree (root : Node) : Disk :=
  ⟨fun path =>
    if '\x00' ∈ path.toList then .error .badName
    else if path = "" ∨ Path.isAbsolute path then .error .notFound
    else if 4096 ≤ path.utf8ByteSize then .error .nameTooLong
    else root.descend [] (Path.pieces path)⟩

/-- A disk on which there is only what was found at some paths. -/
def ofFound (found : List (String × Except ReadFault Node)) : Disk :=
  ⟨fun path => (found.lookup path).getD (.error .notFound)⟩

def isFile (d : Disk) (path : String) : Bool :=
  match d.at? path with
  | .ok node => node.isFile
  | .error _ => false

def isDir (d : Disk) (path : String) : Bool :=
  match d.at? path with
  | .ok node => node.isDir
  | .error _ => false

def read (d : Disk) (path : String) : Except ReadFault String :=
  match d.at? path with
  | .error e => .error e
  | .ok (.dir _) => .error .isADirectory
  | .ok (.file bytes) =>
    match String.fromUTF8? bytes with
    | some text => .ok text
    | none => .error .invalidText

def walk (d : Disk) (path : String) : Except ReadFault (List String) :=
  (d.at? path).map (Node.filesBelow path)

end Disk

end Dialogue
