import Dialogue.Json.Value
namespace Dialogue.Json

def isSpace (c : Char) : Bool :=
  c == ' ' || c == '\n' || c == '\t' || c == '\r'

def skipSpace (s : List Char) : List Char :=
  s.dropWhile isSpace

/-- A character of a string, or a code unit that it names by its number. -/
inductive Piece where
  | char (c : Char)
  | unit (n : Nat)

def hexDigit? (c : Char) : Option Nat :=
  if c.isDigit then some (c.toNat - 48)
  else if 'a' ≤ c ∧ c ≤ 'f' then some (c.toNat - 87)
  else if 'A' ≤ c ∧ c ≤ 'F' then some (c.toNat - 55)
  else none

def hex? (cs : List Char) : Option Nat :=
  (cs.mapM hexDigit?).map fun ds => ds.foldl (fun n d => 16 * n + d) 0

def escape? : Char → Option Char
  | '"' => some '"'
  | '\\' => some '\\'
  | '/' => some '/'
  | 'b' => some '\x08'
  | 'f' => some '\x0c'
  | 'n' => some '\n'
  | 'r' => some '\r'
  | 't' => some '\t'
  | _ => none

/-- The contents of a string up to its closing quote, and the text behind it. -/
def pieces? : List Char → Option (List Piece × List Char)
  | [] => none
  | '"' :: r => some ([], r)
  | '\\' :: 'u' :: a :: b :: c :: d :: r => do
    let n ← hex? [a, b, c, d]
    let (ps, rest) ← pieces? r
    some (.unit n :: ps, rest)
  | '\\' :: c :: r => do
    let c ← escape? c
    let (ps, rest) ← pieces? r
    some (.char c :: ps, rest)
  | c :: r =>
    if c.toNat < 32 ∨ c = '\\' then none
    else do
      let (ps, rest) ← pieces? r
      some (.char c :: ps, rest)

/-- The text of a string; the halves of a surrogate pair have to stand side by side. -/
def join? : List Piece → Option (List Char)
  | [] => some []
  | .char c :: r => (join? r).map (c :: ·)
  | .unit n :: r =>
    if 0xDC00 ≤ n ∧ n < 0xE000 then none
    else if 0xD800 ≤ n ∧ n < 0xDC00 then
      match r with
      | .unit m :: r =>
        if 0xDC00 ≤ m ∧ m < 0xE000 then
          (join? r).map (Char.ofNat (0x10000 + (n - 0xD800) * 0x400 + (m - 0xDC00)) :: ·)
        else none
      | _ => none
    else (join? r).map (Char.ofNat n :: ·)

def readString? (s : List Char) : Option (Option String × List Char) :=
  (pieces? s).map fun (ps, rest) => ((join? ps).map String.ofList, rest)

def readFraction? : List Char → Option (List Char × List Char)
  | '.' :: r =>
    let digits := r.takeWhile Char.isDigit
    if digits = [] then none else some (digits, r.dropWhile Char.isDigit)
  | r => some ([], r)

def readExponent? : List Char → Option (Option Int × List Char)
  | [] => some (none, [])
  | c :: r =>
    if c = 'e' ∨ c = 'E' then
      let (negative, r) := match r with
        | '-' :: r => (true, r)
        | '+' :: r => (false, r)
        | r => (false, r)
      let digits := r.takeWhile Char.isDigit
      if digits = [] then none
      else
        let n : Int := Decimal.digitsValue digits
        some (some (if negative then -n else n), r.dropWhile Char.isDigit)
    else some (none, c :: r)

def readNumber? (s : List Char) : Option (JsonNumber × List Char) := do
  let (negative, s) := match s with
    | '-' :: r => (true, r)
    | r => (false, r)
  let whole := s.takeWhile Char.isDigit
  if whole = [] ∨ (whole.head? = some '0' ∧ whole.length ≠ 1) then none
  let (fraction, s) ← readFraction? (s.dropWhile Char.isDigit)
  let (exponent, s) ← readExponent? s
  some (⟨negative, whole, fraction, exponent⟩, s)

def readWord? (word : String) (value : Json) (s : List Char) : Option (Json × List Char) :=
  if word.toList <+: s then some (value, s.drop word.length) else none

mutual

/-- A value at the start of a text, and the text behind it; twice the length of the text is `fuel`
enough. -/
def readValue? (fuel : Nat) (s : List Char) : Option (Json × List Char) :=
  match fuel with
  | 0 => none
  | fuel + 1 =>
    match skipSpace s with
    | [] => none
    | '"' :: r => (readString? r).map fun (text, rest) => (.string text, rest)
    | '[' :: r =>
      match skipSpace r with
      | ']' :: rest => some (.array [], rest)
      | r => (readItems? fuel r).map fun (items, rest) => (.array items, rest)
    | '{' :: r =>
      match skipSpace r with
      | '}' :: rest => some (.object [], rest)
      | r => (readMembers? fuel r).map fun (members, rest) => (.object members, rest)
    | 't' :: r => readWord? "true" (.bool true) ('t' :: r)
    | 'f' :: r => readWord? "false" (.bool false) ('f' :: r)
    | 'n' :: r => readWord? "null" .null ('n' :: r)
    | r => (readNumber? r).map fun (n, rest) => (.number n, rest)

def readItems? (fuel : Nat) (s : List Char) : Option (List Json × List Char) :=
  match fuel with
  | 0 => none
  | fuel + 1 => do
    let (item, r) ← readValue? fuel s
    match skipSpace r with
    | ']' :: rest => some ([item], rest)
    | ',' :: r =>
      let (items, rest) ← readItems? fuel r
      some (item :: items, rest)
    | _ => none

def readMembers? (fuel : Nat) (s : List Char) : Option (List (Option String × Json) × List Char) :=
  match fuel with
  | 0 => none
  | fuel + 1 =>
    match skipSpace s with
    | '"' :: r => do
      let (key, r) ← readString? r
      match skipSpace r with
      | ':' :: r =>
        let (value, r) ← readValue? fuel r
        match skipSpace r with
        | '}' :: rest => some ([(key, value)], rest)
        | ',' :: r =>
          let (members, rest) ← readMembers? fuel r
          some ((key, value) :: members, rest)
        | _ => none
      | _ => none
    | _ => none

end

def read? (s : String) : Option Json :=
  let cs := s.toList
  match readValue? (2 * cs.length + 2) cs with
  | some (j, rest) => if skipSpace rest = [] then some j else none
  | none => none

end Dialogue.Json
