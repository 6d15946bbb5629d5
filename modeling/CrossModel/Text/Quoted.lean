/-!
# Quoted text

A quoted text is a sequence of units between double quotes. A unit is one character other than a
quote and a backslash, or a backslash and one more character. A backslash before `n` and `t` stands
for a line feed and a tab; before any other character it stands for that character.
-/

namespace CrossModel.Quoted

/-- How far the units of a quoted text reach behind its opening quote, and whether they end at a
closing quote, which is then counted too. A backslash at the end of a line or of the text is no
unit, and stops them. -/
def measure : List Char → Nat × Bool
  | [] => (0, false)
  | '"' :: _ => (1, true)
  | ['\\'] => (0, false)
  | '\\' :: c :: cs =>
    if c = '\n' then (0, false)
    else
      let further := measure cs
      (further.1 + 2, further.2)
  | _ :: cs =>
    let further := measure cs
    (further.1 + 1, further.2)

/-- The character that a backslash and `c` stand for. -/
def escaped (c : Char) : Char :=
  if c = 'n' then '\n' else if c = 't' then '\t' else c

/-- The value of a sequence of units. -/
def decodeUnits : List Char → List Char
  | [] => []
  | ['\\'] => []
  | '\\' :: c :: cs => escaped c :: decodeUnits cs
  | c :: cs => c :: decodeUnits cs

/-- The value of a quoted text, given with its quotes. -/
def decode (quoted : String) : String :=
  String.ofList (decodeUnits quoted.toList.tail.dropLast)

end CrossModel.Quoted
