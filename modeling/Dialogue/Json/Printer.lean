import Dialogue.Decimal.Shortest
import Dialogue.Json.Value
namespace Dialogue.Json

def hexChar (n : Nat) : Char :=
  if n < 10 then Char.ofNat (48 + n) else Char.ofNat (87 + n)

def shortEscape? : Char → Option Char
  | '"' => some '"'
  | '\\' => some '\\'
  | '\x08' => some 'b'
  | '\x0c' => some 'f'
  | '\n' => some 'n'
  | '\r' => some 'r'
  | '\t' => some 't'
  | _ => none

def quoteChar (c : Char) : List Char :=
  match shortEscape? c with
  | some e => ['\\', e]
  | none =>
    if c.toNat < 32 then ['\\', 'u', '0', '0', hexChar (c.toNat / 16), hexChar (c.toNat % 16)]
    else [c]

def quote (s : String) : String :=
  String.ofList ('"' :: s.toList.flatMap quoteChar ++ ['"'])

def quoteText (s : Option String) : String :=
  match s with
  | some s => quote s
  | none => "\"\\ud800\""

def printNumber (n : JsonNumber) : String :=
  (if n.negative then "-" else "") ++ String.ofList n.whole ++
    (if n.fraction = [] then "" else "." ++ String.ofList n.fraction) ++
    n.exponent.elim "" fun e => "e" ++ toString e

mutual

def print : Json → String
  | .null => "null"
  | .bool b => if b then "true" else "false"
  | .number n => printNumber n
  | .string s => quoteText s
  | .array items => "[" ++ ",".intercalate (printItems items) ++ "]"
  | .object members => "\x7b" ++ ",".intercalate (printMembers members) ++ "\x7d"

def printItems : List Json → List String
  | [] => []
  | item :: r => print item :: printItems r

def printMembers : List (Option String × Json) → List String
  | [] => []
  | (key, value) :: r => (quoteText key ++ ":" ++ print value) :: printMembers r

end

end Dialogue.Json
