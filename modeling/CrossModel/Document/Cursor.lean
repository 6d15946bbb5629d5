import CrossModel.Document.ParseError
import CrossModel.Token.Scan

/-!
# Reading lexemes one by one

A parser consumes lexemes from a cursor and ends with a value or with the first error. It decides by
the kind of the next lexeme alone and never goes back. The one loop, `repeatWhile`, stops as soon as
a round consumes nothing, so it always ends.
-/

namespace CrossModel

/-- A token with its place in the lines of the text. -/
structure Lexeme where
  kind : TokenKind
  text : String
  span : Span
deriving DecidableEq, Repr, Inhabited

/-- The lexemes of a text, without comments. -/
def Lexeme.ofText (text : String) : List Lexeme :=
  let index := LineIndex.ofText text
  (Token.significant text).map fun token =>
    ⟨token.kind, token.text, index.span token.start token.stop⟩

/-- How far reading has come. -/
structure Cursor where
  rest : List Lexeme
  /-- The end of the lexeme that was consumed last. -/
  passed : Position
  /-- The end of the text. -/
  finish : Position
deriving DecidableEq, Repr, Inhabited

namespace Cursor

/-- A cursor before the first lexeme of a text. -/
def ofText (text : String) : Cursor :=
  ⟨Lexeme.ofText text, .zero, (LineIndex.ofText text).position text.utf8ByteSize⟩

def next? (cursor : Cursor) : Option TokenKind :=
  cursor.rest.head?.map (·.kind)

/-- The start of the next lexeme, or the end of the text. -/
def start (cursor : Cursor) : Position :=
  match cursor.rest with
  | lexeme :: _ => lexeme.span.start
  | [] => cursor.finish

/-- The error of finding the next lexeme where something else was expected. -/
def mismatch (cursor : Cursor) (expected : Expected) : ParseError :=
  match cursor.rest with
  | [] => ⟨.unexpectedEnd expected, .point cursor.finish⟩
  | lexeme :: _ =>
    if lexeme.kind = .invalid then ⟨.invalidToken lexeme.text, lexeme.span⟩
    else ⟨.unexpectedToken expected lexeme.kind, lexeme.span⟩

end Cursor

abbrev Parser := StateT Cursor (Except ParseError)

namespace Parser

variable {α : Type}

/-- The kind of the next lexeme, which is not consumed. -/
def next? : Parser (Option TokenKind) := fun cursor =>
  .ok (cursor.next?, cursor)

/-- Ends reading with an error at the next lexeme. -/
def reject (expected : Expected) : Parser α := fun cursor =>
  .error (cursor.mismatch expected)

/-- Consumes the next lexeme if it is of this kind. -/
def accept? (kind : TokenKind) : Parser (Option Lexeme) := fun cursor =>
  match cursor.rest with
  | lexeme :: rest =>
    if lexeme.kind = kind then
      .ok (some lexeme, { cursor with rest := rest, passed := lexeme.span.stop })
    else .ok (none, cursor)
  | [] => .ok (none, cursor)

/-- Consumes the next lexeme, which has to be of this kind. -/
def expect (kind : TokenKind) : Parser Lexeme := do
  match ← accept? kind with
  | some lexeme => return lexeme
  | none => reject (.token kind)

def keyword (word : Keyword) : Parser Unit :=
  discard (expect (.keyword word))

def symbol (mark : Symbol) : Parser Unit :=
  discard (expect (.symbol mark))

/-- Reads `item` if the next lexeme is of this kind, which is consumed before. -/
def after? (kind : TokenKind) (item : Parser α) : Parser (Option α) := do
  match ← accept? kind with
  | some _ => return some (← item)
  | none => return none

/-- Reads items as long as the next lexeme, or its absence, says so. -/
def repeatWhile (more : Option TokenKind → Bool) (item : Parser α) : Parser (List α) :=
  fun cursor =>
    if more cursor.next? then
      match item cursor with
      | .error error => .error error
      | .ok (value, ahead) =>
        if ahead.rest.length < cursor.rest.length then
          match repeatWhile more item ahead with
          | .error error => .error error
          | .ok (values, done) => .ok (value :: values, done)
        else .ok ([value], ahead)
    else .ok ([], cursor)
termination_by cursor => cursor.rest.length

/-- Reads an item, and further ones each behind this symbol. -/
def separated (mark : Symbol) (item : Parser α) : Parser (α × List α) := do
  let first ← item
  let others ← repeatWhile (· = some (.symbol mark)) (symbol mark *> item)
  return (first, others)

/-- Reads items with commas between them up to a closing symbol. There may be none. -/
def listed (close : Symbol) (item : Parser α) : Parser (List α) := do
  if (← next?) = some (.symbol close) then
    symbol close
    return []
  else
    let (first, others) ← separated .comma item
    symbol close
    return first :: others

/-- Reads `item` and the span from its first to its last lexeme. -/
def spanned (item : Parser α) : Parser (α × Span) := do
  let start := (← get).start
  let value ← item
  return (value, ⟨start, (← get).passed⟩)

end Parser

end CrossModel
