import Dialogue.Files.Pictures
namespace Dialogue

def scriptExtension : String := "txt"

/-- There is no script and no directory at a path. -/
structure NoSuchPath where
  path : String
deriving DecidableEq, Repr

def NoSuchPath.message (e : NoSuchPath) : String :=
  "路径不存在: " ++ e.path

/-- The script at a path, or the scripts in a directory and below it in the order of their paths. -/
def Disk.scripts (d : Disk) (path : String) : Except NoSuchPath (List String) :=
  if d.isFile path then .ok [path]
  else if d.isDir path then
    match d.walk path with
    | .error _ => .error ⟨path⟩
    | .ok paths =>
      .ok ((paths.filter (Path.extension? · = some scriptExtension)).mergeSort Path.le)
  else .error ⟨path⟩

def Disk.check (d : Disk) (catalog : Option Catalog) (paths : List String) : Report :=
  ⟨paths.length, paths.flatMap fun path =>
    match d.read path with
    | .ok text => checkText catalog path text
    | .error e => [(Finding.unreadable e.message).diagnostic path none]⟩

end Dialogue
