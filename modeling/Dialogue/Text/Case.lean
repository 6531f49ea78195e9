namespace Dialogue.Text

/-- Lower case as far as it is ASCII, in which only the Kelvin sign joins the capitals of ASCII. -/
def lowerChar (c : Char) : Char :=
  if c = '\u212A' then 'k' else c.toLower

def lower (s : String) : String :=
  String.ofList (s.toList.map lowerChar)

def lowerAscii (s : String) : String :=
  String.ofList (s.toList.map Char.toLower)

end Dialogue.Text
