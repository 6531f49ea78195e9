import Dialogue.Check.Analysis
import Dialogue.Files.Disk
namespace Dialogue

def Path.below (dir path : String) : String :=
  "/".intercalate ((components path).drop (components dir).length)

/-- The names of a picture: its file name, and its path below the directory with slashes for
backslashes, both without the extension. -/
def pictureNames (dir path : String) : List String :=
  let slash (c : Char) : Char := if c = '\\' then '/' else c
  let sub := Path.withExtension (Path.below dir path) ""
  (Path.stem? path).toList ++ [String.ofList (sub.toList.map slash)]

def Disk.pictures (d : Disk) (dir : String) : Except ReadFault (List String) :=
  (d.walk dir).map fun paths => (paths.flatMap (pictureNames dir)).eraseDups

end Dialogue
