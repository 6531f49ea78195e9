import Dialogue.Session
namespace Dialogue.Main

/-- Looks at a path; of a directory nothing more is learned than that it is one. -/
def look (path : String) : IO (Except ReadFault Node) := do
  match ← (IO.FS.readBinFile path).toBaseIO with
  | .ok bytes => return .ok (.file bytes)
  | .error (.inappropriateType none ..) => return .ok (.dir [])
  | .error (.inappropriateType (some _) ..) => return .error .notADirectory
  | .error (.invalidArgument ..) => return .error .nameTooLong
  | .error _ => return .error .notFound

def lookAll (paths : List String) : IO Disk := do
  let found ← paths.mapM fun path => do return (path, ← look path)
  return .ofFound found

def pathsOf (config : Config) : Command → List String
  | .play script _ => (script.or config.startPath?).toList ++ config.charactersDir.toList
  | .check path => path.getD config.scriptsRoot :: config.charactersDir.toList

/-- A check has to list directories, which is not done here. -/
def canCheck (d : Disk) (paths : List String) : Bool :=
  !paths.any d.isDir

/-- What the arguments ask for, and the part of the disk that it takes. -/
def survey (args : List String) : IO (Session × Disk) := do
  match CommandLine.parse args with
  | .error usage => return (.over (.ofUsage usage), .ofFound [])
  | .ok line =>
    let config := Config.loadOrDefault (← lookAll [line.config]) line.config
    let paths := pathsOf config line.command
    let d ← lookAll paths
    match line.command with
    | .check _ =>
      if canCheck d paths then return (.ofCommand config d line.command, d)
      else return (.over (.failure "无法列出目录"), d)
    | .play .. => return (.ofCommand config d line.command, d)

def printAll (texts : List String) : IO Unit := do
  texts.forM IO.print
  (← IO.getStdout).flush

def complain (text : String) : IO Unit := do
  (← IO.getStderr).putStrLn text

def nextLine : IO (Option InputLine) := do
  match ← (← IO.getStdin).getLine.toBaseIO with
  | .ok "" => return none
  | .ok line => return some (some line)
  | .error _ => return some none

partial def ask (p : Player) : IO Outcome := do
  match ← nextLine with
  | none => return .over p.summary
  | some line =>
    let (said, outcome) := p.answer line
    printAll said
    match outcome with
    | some outcome => return outcome
    | none => ask p

partial def play : Outcome → IO UInt32
  | .over _ => return 0
  | .failed fault => do
    complain (": ".intercalate fault.messages)
    return 1
  | .goesOn p => do
    let (shown, need) := p.next
    printAll shown
    match need with
    | .nothing outcome => play outcome
    | .line q => play (← ask q)
    | .script q path => play (q.load path ((← lookAll [path]).read path))

def run : Session × Disk → IO UInt32
  | (.over ending, _) => do
    printAll ending.out
    ending.complaint.forM complain
    return ending.code.toUInt32
  | (.play config options path, d) => play (Player.begin config options d path)

end Dialogue.Main

def main (args : List String) : IO UInt32 := do
  Dialogue.Main.run (← Dialogue.Main.survey args)
