/-!
# Kinds of tokens

Documents are written with seventeen keywords, sixteen symbols, identifiers, integers, quoted
strings and comments. Whatever fits none of these is an invalid token.
-/

namespace CrossModel

inductive Keyword where
  | importKw | platformKw | libraryKw | asKw | abstractKw | extendsKw | providerKw | eventKw
  | intentKw | followsKw | inputsKw | useKw | stateKw | onKw | whenKw | trueKw | falseKw
deriving DecidableEq, Repr, Inhabited

namespace Keyword

def text : Keyword → String
  | importKw => "import"
  | platformKw => "platform"
  | libraryKw => "library"
  | asKw => "as"
  | abstractKw => "abstract"
  | extendsKw => "extends"
  | providerKw => "provider"
  | eventKw => "event"
  | intentKw => "intent"
  | followsKw => "follows"
  | inputsKw => "inputs"
  | useKw => "use"
  | stateKw => "state"
  | onKw => "on"
  | whenKw => "when"
  | trueKw => "true"
  | falseKw => "false"

def all : List Keyword :=
  [importKw, platformKw, libraryKw, asKw, abstractKw, extendsKw, providerKw, eventKw, intentKw,
    followsKw, inputsKw, useKw, stateKw, onKw, whenKw, trueKw, falseKw]

/-- The keyword with this text. -/
def ofText? (word : String) : Option Keyword :=
  all.find? (·.text = word)

end Keyword

inductive Symbol where
  | arrow | both | either | equal | notEqual | lessEqual | greaterEqual | less | greater | bang
  | openBrace | closeBrace | openParen | closeParen | comma | dot
deriving DecidableEq, Repr, Inhabited

namespace Symbol

def chars : Symbol → List Char
  | arrow => ['-', '>']
  | both => ['&', '&']
  | either => ['|', '|']
  | equal => ['=', '=']
  | notEqual => ['!', '=']
  | lessEqual => ['<', '=']
  | greaterEqual => ['>', '=']
  | less => ['<']
  | greater => ['>']
  | bang => ['!']
  | openBrace => ['\x7b']
  | closeBrace => ['\x7d']
  | openParen => ['(']
  | closeParen => [')']
  | comma => [',']
  | dot => ['.']

/-- All symbols, the longer ones first. -/
def all : List Symbol :=
  [arrow, both, either, equal, notEqual, lessEqual, greaterEqual, less, greater, bang, openBrace,
    closeBrace, openParen, closeParen, comma, dot]

/-- The longest symbol that the characters start with. -/
def atStart? (cs : List Char) : Option Symbol :=
  all.find? (·.chars.isPrefixOf cs)

end Symbol

inductive TokenKind where
  | lineComment
  | blockComment
  | keyword (word : Keyword)
  | ident
  | integer
  | string
  | symbol (mark : Symbol)
  /-- A stretch of text that fits no other kind. -/
  | invalid
deriving DecidableEq, Repr, Inhabited

namespace TokenKind

def isComment : TokenKind → Bool
  | lineComment | blockComment => true
  | _ => false

/-- How messages speak of a token of this kind. -/
def describe : TokenKind → String
  | lineComment | blockComment => "comment"
  | keyword word => "'" ++ word.text ++ "'"
  | ident => "identifier"
  | integer => "integer"
  | string => "string"
  | symbol mark => "'" ++ String.ofList mark.chars ++ "'"
  | invalid => "invalid token"

end TokenKind

end CrossModel
