import CrossModel.Text.LineIndex
import CrossModel.Text.Quoted
import CrossModel.Token.Kind

/-!
# Tokens of a text

A text is cut into tokens from left to right. Blanks between tokens are skipped, and each token is
as long as its kind allows: `lexemeAt` says which kind starts at a character and how many further
characters belong to it, so that texts and gaps of the tokens add up to the whole text by
construction.
-/

namespace CrossModel

/-- A token, with the byte offsets of its first byte and of the byte after its last one. The offsets
are numbers without a bound; 32 bits hold them as long as the text is under 4 GiB. -/
structure Token where
  kind : TokenKind
  text : String
  start : Nat
  stop : Nat
deriving DecidableEq, Repr, Inhabited

namespace Token

/-- Characters that separate tokens: space, tab, carriage return, line feed and form feed. -/
def isGap (c : Char) : Bool :=
  c == ' ' || c == '\t' || c == '\r' || c == '\n' || c == '\x0c'

def isDigit (c : Char) : Bool :=
  decide ('0' ≤ c ∧ c ≤ '9')

/-- Characters that a word can start with: the ASCII letters and the underscore. -/
def isWordStart (c : Char) : Bool :=
  decide ('a' ≤ c ∧ c ≤ 'z') || decide ('A' ≤ c ∧ c ≤ 'Z') || c == '_'

def isWordChar (c : Char) : Bool :=
  isWordStart c || isDigit c

/-- Number of characters up to the end of the first `*/`. -/
def commentClose? : List Char → Option Nat
  | [] => none
  | '*' :: '/' :: _ => some 2
  | _ :: cs => (commentClose? cs).map (· + 1)

/-- What a word is: a keyword or an identifier. -/
def wordKind (word : List Char) : TokenKind :=
  match Keyword.ofText? (String.ofList word) with
  | some keyword => .keyword keyword
  | none => .ident

/-- The kind of the token that starts with `c`, and the number of its characters behind `c`, where
`cs` is the text behind `c`. -/
def lexemeAt (c : Char) (cs : List Char) : TokenKind × Nat :=
  if isWordStart c then
    let tail := cs.takeWhile isWordChar
    (wordKind (c :: tail), tail.length)
  else if isDigit c then
    (.integer, (cs.takeWhile isDigit).length)
  else if c = '"' then
    let body := Quoted.measure cs
    (if body.2 then .string else .invalid, body.1)
  else
    match c, cs with
    | '/', '/' :: rest => (.lineComment, (rest.takeWhile (· ≠ '\n')).length + 1)
    | '/', '*' :: rest =>
      match commentClose? rest with
      | some length => (.blockComment, length + 1)
      | none => (.invalid, cs.length)
    | _, _ =>
      match Symbol.atStart? (c :: cs) with
      | some mark => (.symbol mark, mark.chars.length - 1)
      | none => (.invalid, 0)

/-- The tokens of a text whose first character stands at byte `offset`. -/
def scanFrom (offset : Nat) : List Char → List Token
  | [] => []
  | c :: cs =>
    if isGap c then scanFrom (offset + c.utf8Size) cs
    else
      let found := lexemeAt c cs
      let lexeme := c :: cs.take found.2
      let stop := offset + utf8Length lexeme
      { kind := found.1, text := String.ofList lexeme, start := offset, stop := stop } ::
        scanFrom stop (cs.drop found.2)
termination_by cs => cs.length

/-- All tokens of a text, comments included. -/
def scan (text : String) : List Token :=
  scanFrom 0 text.toList

/-- The tokens of a text without its comments. -/
def significant (text : String) : List Token :=
  (scan text).filter (!·.kind.isComment)

end Token

end CrossModel
