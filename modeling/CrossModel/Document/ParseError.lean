import CrossModel.Text.Position
import CrossModel.Token.Kind

/-!
# Parse errors

Why a text is no document, and the place that shows it.
-/

namespace CrossModel

/-- How deep `!` and parentheses may be nested in a condition. -/
def nestingLimit : Nat := 64

/-- What would have been right in place of an unexpected token. -/
inductive Expected where
  | token (kind : TokenKind)
  | importKind
  | executionMember
  | operand
  | documentEnd
deriving DecidableEq, Repr, Inhabited

def Expected.describe : Expected → String
  | token kind => kind.describe
  | importKind => "'platform' or 'library'"
  | executionMember => "'use', 'state' or 'on'"
  | operand => "expression"
  | documentEnd => "end of document"

inductive ParseFault where
  | emptyDocument
  | unexpectedToken (expected : Expected) (found : TokenKind)
  | unexpectedEnd (expected : Expected)
  | invalidToken (text : String)
  | integerOutOfRange (text : String)
  | nestedTooDeeply
deriving DecidableEq, Repr, Inhabited

def ParseFault.describe : ParseFault → String
  | emptyDocument => "document is empty"
  | unexpectedToken expected found =>
    "expected " ++ expected.describe ++ ", found " ++ found.describe
  | unexpectedEnd expected => "expected " ++ expected.describe ++ ", found end of input"
  | invalidToken text => "unrecognised input '" ++ text ++ "'"
  | integerOutOfRange text => "integer literal '" ++ text ++ "' is out of range"
  | nestedTooDeeply => "condition nested deeper than " ++ toString nestingLimit ++ " levels"

structure ParseError where
  fault : ParseFault
  span : Span
deriving DecidableEq, Repr, Inhabited

/-- The fault and its place, with lines and columns counted from one. -/
def ParseError.message (error : ParseError) : String :=
  error.fault.describe ++ " at " ++ toString (error.span.start.line + 1) ++ ":" ++
    toString (error.span.start.column + 1)

end CrossModel
