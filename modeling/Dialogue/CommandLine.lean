import Dialogue.Decimal.Numeral
import Dialogue.Player
import Dialogue.Text.Lines
namespace Dialogue

inductive Command where
  | play (script : Option String) (options : PlayOptions)
  | check (path : Option String)
deriving DecidableEq, Repr

structure CommandLine where
  config : String
  verbose : Bool
  command : Command
deriving DecidableEq, Repr

inductive Usage where
  | help
  | version
  | error
deriving DecidableEq, Repr

namespace CommandLine

structure Switch where
  name : String
  long : String
  short : Option Char
  valued : Bool
deriving DecidableEq, Repr

def globals : List Switch :=
  [⟨"config", "config", some 'c', true⟩, ⟨"verbose", "verbose", some 'v', false⟩,
    ⟨"help", "help", some 'h', false⟩]

def topSwitches : List Switch :=
  ⟨"version", "version", some 'V', false⟩ :: globals

def playSwitches : List Switch :=
  [⟨"auto", "auto", none, false⟩, ⟨"choose", "choose", none, true⟩,
    ⟨"max-steps", "max-steps", none, true⟩] ++ globals

/-- An argument as it was understood; what follows a bad one is not looked at. -/
inductive Token where
  | flag (name : String)
  | option (name value : String)
  | positional (value : String)
  | bad
deriving DecidableEq, Repr

def isOption (arg : String) : Bool :=
  match arg.toList with
  | '-' :: _ :: _ => true
  | _ => false

/-- Takes the next argument as a value; the result says whether it is used up. -/
def takeNext (name : String) : Option String → List Token × Bool
  | some value => if isOption value then ([.bad], false) else ([.option name value], true)
  | none => ([.bad], false)

/-- The letters behind a dash; the first that takes a value takes the rest of the argument, or the
next one. -/
def readShort (switches : List Switch) (next : Option String) : List Char → List Token × Bool
  | [] => ([], false)
  | c :: r =>
    match switches.find? (·.short == some c), r with
    | none, _ => ([.bad], false)
    | some ⟨name, _, _, true⟩, '=' :: value => ([.option name (String.ofList value)], false)
    | some ⟨name, _, _, true⟩, [] => takeNext name next
    | some ⟨name, _, _, true⟩, value => ([.option name (String.ofList value)], false)
    | some ⟨name, _, _, false⟩, _ =>
      let (tokens, used) := readShort switches next r
      (.flag name :: tokens, used)

def readLong (switches : List Switch) (next : Option String) (text : List Char) :
    List Token × Bool :=
  let name := String.ofList (text.takeWhile (· != '='))
  match switches.find? (·.long == name), text.dropWhile (· != '=') with
  | none, _ => ([.bad], false)
  | some ⟨name, _, _, true⟩, '=' :: value => ([.option name (String.ofList value)], false)
  | some ⟨_, _, _, false⟩, '=' :: _ => ([.bad], false)
  | some ⟨name, _, _, true⟩, _ => takeNext name next
  | some ⟨name, _, _, false⟩, _ => ([.flag name], false)

/-- Reads options up to the first argument that is none, if `stop`, or all arguments; behind two
dashes nothing is an option. -/
def scan (switches : List Switch) (stop : Bool) : List String → List Token × List String
  | [] => ([], [])
  | arg :: r =>
    if arg = "--" then (if stop then ([.bad], []) else (r.map .positional, []))
    else if isOption arg then
      let read := match arg.toList with
        | '-' :: '-' :: text => readLong switches r.head? text
        | _ :: text => readShort switches r.head? text
        | [] => ([], false)
      match read, r with
      | (tokens, true), _ :: r =>
        let (more, rest) := scan switches stop r
        (tokens ++ more, rest)
      | (tokens, _), r =>
        let (more, rest) := scan switches stop r
        (tokens ++ more, rest)
    else if stop then ([], arg :: r)
    else
      let (more, rest) := scan switches stop r
      (.positional arg :: more, rest)

structure Settings where
  config : Option String := none
  verbose : Bool := false
  auto : Bool := false
  choices : List Nat := []
  maxSteps : Option Nat := none
  path : Option String := none

/-- Takes one argument in; only choices may be given more than once, and no path is empty. -/
def Settings.take (s : Settings) : Token → Except Usage Settings
  | .flag "help" => .error .help
  | .flag "version" => .error .version
  | .flag "verbose" => if s.verbose then .error .error else .ok { s with verbose := true }
  | .flag "auto" => if s.auto then .error .error else .ok { s with auto := true }
  | .option "config" value =>
    if s.config.isSome ∨ value = "" then .error .error else .ok { s with config := some value }
  | .option "choose" value =>
    match (Text.splitOn ',' value.toList).mapM Decimal.index? with
    | some indexes => .ok { s with choices := s.choices ++ indexes }
    | none => .error .error
  | .option "max-steps" value =>
    match s.maxSteps, Decimal.index? value.toList with
    | none, some n => .ok { s with maxSteps := some n }
    | _, _ => .error .error
  | .positional value =>
    if s.path.isSome ∨ value = "" then .error .error else .ok { s with path := some value }
  | _ => .error .error

def Settings.ofTokens (tokens : List Token) : Except Usage Settings :=
  tokens.foldlM Settings.take {}

def readCommand (outer : Settings) (switches : List Switch) (make : Settings → Command)
    (args : List String) : Except Usage CommandLine := do
  let inner ← Settings.ofTokens (scan switches false args).1
  return {
    config := (inner.config.or outer.config).getD "config.json"
    verbose := inner.verbose || outer.verbose
    command := make inner }

def parse (args : List String) : Except Usage CommandLine := do
  let (tokens, rest) := scan topSwitches true args
  let outer ← Settings.ofTokens tokens
  match rest with
  | "run" :: args =>
    readCommand outer playSwitches
      (fun s => .play s.path ⟨s.auto, s.choices, s.maxSteps.getD 10000⟩) args
  | "check" :: args => readCommand outer globals (fun s => .check s.path) args
  | ["help"] => .error .help
  | ["help", command] =>
    .error (if command ∈ ["run", "check", "help"] then .help else .error)
  | _ => .error .error

end CommandLine

end Dialogue
