import CrossModel.Document.Basic
import CrossModel.Document.Cursor

/-!
# Reading documents

`Document.parse` reads a document from text. After the imports, `platform` or `abstract` starts a
platform and `library` a library; everything else is an execution model. In conditions, comparisons
bind closest and do not chain; then come `!`, `&&` and `||`, the last two grouped from the left.
-/

namespace CrossModel.Parser

def name : Parser Name := do
  let lexeme ← expect .ident
  return ⟨lexeme.text, lexeme.span⟩

/-- Identifiers with dots between them, kept as one text. -/
def qualified : Parser Reference := do
  let ((first, others), span) ← spanned (separated .dot (expect .ident))
  return ⟨".".intercalate ((first :: others).map (·.text)), span⟩

def quotedText : Parser String := do
  return Quoted.decode (← expect .string).text

/-- A list of names in parentheses, which may be missing. -/
def parameters : Parser (List Name) := do
  return (← after? (.symbol .openParen) (listed .closeParen name)).getD []

/-- What stands in braces; without braces it is empty. -/
def braced {α : Type} (body : Parser (List α)) : Parser (List α) := do
  return (← after? (.symbol .openBrace) (do
    let items ← body
    symbol .closeBrace
    return items)).getD []

/-- Items up to the closing brace; what is no item is an error of the item. -/
def untilBrace {α : Type} (item : Parser α) : Parser (List α) :=
  repeatWhile (· ≠ some (.symbol .closeBrace)) item

/-! ### Imports -/

def importKind : Parser DefinitionKind := do
  match ← accept? (.keyword .platformKw) with
  | some _ => return .platform
  | none =>
    match ← accept? (.keyword .libraryKw) with
    | some _ => return .library
    | none => reject .importKind

def aliasName : Parser String := do
  if (← next?) = some .string then quotedText else return (← name).text

def importDeclaration : Parser ImportDeclaration := do
  let ((kind, path, aliasName), span) ← spanned (do
    keyword .importKw
    let kind ← importKind
    let path ← quotedText
    let aliasName ← after? (.keyword .asKw) aliasName
    return (kind, path, aliasName))
  return { kind, path, aliasName, span }

/-! ### Platforms and libraries -/

def event : Parser Event := do
  keyword .eventKw
  let name ← name
  let parameters ← parameters
  return { name, parameters }

def provider : Parser Provider := do
  keyword .providerKw
  let name ← name
  let events ← braced (untilBrace event)
  return { name, events }

def platform (imports : List ImportDeclaration) : Parser Platform := do
  let isAbstract := (← accept? (.keyword .abstractKw)).isSome
  keyword .platformKw
  let name ← name
  let base ← after? (.keyword .extendsKw) qualified
  let providers ← braced (untilBrace provider)
  return { name, isAbstract, base, imports, providers }

def samplePhrases : Parser (List String) := do
  return (← after? (.keyword .inputsKw) (do
    symbol .openBrace
    listed .closeBrace quotedText)).getD []

def intent : Parser Event := do
  keyword .intentKw
  let name ← name
  let follows ← after? (.keyword .followsKw) qualified
  let parameters ← parameters
  let inputs ← braced samplePhrases
  return { name, parameters, intent := some { follows, inputs } }

def libraryMember : Parser Event := do
  if (← next?) = some (.keyword .intentKw) then intent else event

def startsLibraryMember (next : Option TokenKind) : Bool :=
  next = some (.keyword .eventKw) || next = some (.keyword .intentKw)

def library (imports : List ImportDeclaration) : Parser Library := do
  keyword .libraryKw
  let name ← name
  let events ← braced (repeatWhile startsLibraryMember libraryMember)
  return { name, imports, events }

/-! ### Conditions -/

/-- The largest integer that a condition can hold: that of a signed word of 64 bits. -/
def integerLimit : Nat := 9223372036854775807

/-- The number that decimal digits stand for. -/
def decimal (digits : List Char) : Nat :=
  digits.foldl (fun value digit => 10 * value + (digit.toNat - '0'.toNat)) 0

def integer : Parser Nat := do
  let lexeme ← expect .integer
  let value := decimal lexeme.text.toList
  if value ≤ integerLimit then return value
  else throw ⟨.integerOutOfRange lexeme.text, lexeme.span⟩

/-- Readers for what stands one level deeper, behind a `!` and inside parentheses. -/
structure Deeper where
  unary : Parser Condition
  disjunction : Parser Condition

/-- Reads one level deeper, unless the deepest level is reached: that is an error at the next
lexeme. -/
def descend (deeper : Option Deeper) (inner : Deeper → Parser Condition) : Parser Condition :=
  match deeper with
  | some readers => inner readers
  | none => fun cursor =>
    .error ⟨.nestedTooDeeply, (cursor.rest.head?.map (·.span)).getD (.point cursor.finish)⟩

def accessed : Parser Condition := do
  let target ← name
  let field ← after? (.symbol .dot) name
  return .access ⟨target.text, target.span⟩ field

def atom (deeper : Option Deeper) : Parser Condition := do
  match ← next? with
  | some (.keyword .trueKw) => keyword .trueKw; return .literal (.bool true)
  | some (.keyword .falseKw) => keyword .falseKw; return .literal (.bool false)
  | some .string => return .literal (.string (← quotedText))
  | some .integer => return .literal (.int (← integer))
  | some (.symbol .openParen) =>
    descend deeper fun readers => do
      symbol .openParen
      let inner ← readers.disjunction
      symbol .closeParen
      return inner
  | some .ident => accessed
  | _ => reject .operand

/-- The comparison that a lexeme of this kind stands for. -/
def comparison? : TokenKind → Option Operator
  | .symbol .equal => some .eq
  | .symbol .notEqual => some .ne
  | .symbol .less => some .lt
  | .symbol .lessEqual => some .le
  | .symbol .greater => some .gt
  | .symbol .greaterEqual => some .ge
  | _ => none

def comparison (deeper : Option Deeper) : Parser Condition := do
  let left ← atom deeper
  match ← next? with
  | none => return left
  | some kind =>
    match comparison? kind with
    | none => return left
    | some op =>
      discard (expect kind)
      return .binary op left (← atom deeper)

def unary (deeper : Option Deeper) : Parser Condition := do
  if (← next?) = some (.symbol .bang) then
    descend deeper fun readers => do
      symbol .bang
      return .not (← readers.unary)
  else comparison deeper

/-- Operands with one operator between them, grouped from the left. -/
def chain (mark : Symbol) (op : Operator) (operand : Parser Condition) : Parser Condition := do
  let (first, others) ← separated mark operand
  return others.foldl (.binary op) first

def disjunction (deeper : Option Deeper) : Parser Condition :=
  chain .either .or (chain .both .and (unary deeper))

/-- Readers for conditions that are nested at most this deep. -/
def deeper : Nat → Option Deeper
  | 0 => none
  | depth + 1 => some ⟨unary (deeper depth), disjunction (deeper depth)⟩

def condition : Parser Condition :=
  disjunction (deeper nestingLimit)

/-! ### Execution models -/

def transition : Parser Transition := do
  let ((target, condition), span) ← spanned (do
    symbol .arrow
    let target ← name
    let condition ← after? (.keyword .whenKw) condition
    return (target, condition))
  return { state := ⟨target.text, target.span⟩, condition, span }

def rule : Parser Rule := do
  let ((event, transitions), span) ← spanned (do
    keyword .onKw
    let event ← qualified
    symbol .openBrace
    let transitions ← repeatWhile (· = some (.symbol .arrow)) transition
    symbol .closeBrace
    return (event, transitions))
  return { event, transitions, span }

inductive ExecutionMember where
  | provider (reference : Reference)
  | state (name : Name)
  | rule (content : Rule)

namespace ExecutionMember

def provider? : ExecutionMember → Option Reference
  | provider reference => some reference
  | _ => none

def state? : ExecutionMember → Option Name
  | state name => some name
  | _ => none

def rule? : ExecutionMember → Option Rule
  | rule content => some content
  | _ => none

end ExecutionMember

def executionMember : Parser ExecutionMember := do
  match ← next? with
  | some (.keyword .useKw) =>
    keyword .useKw
    keyword .providerKw
    return .provider (← qualified)
  | some (.keyword .stateKw) =>
    keyword .stateKw
    return .state (← name)
  | some (.keyword .onKw) => return .rule (← rule)
  | _ => reject .executionMember

def execution (imports : List ImportDeclaration) : Parser Execution := do
  let members ← repeatWhile Option.isSome executionMember
  return {
    imports
    providers := members.filterMap (·.provider?)
    states := members.filterMap (·.state?)
    rules := members.filterMap (·.rule?) }

/-! ### Documents -/

def documentEnd : Parser Unit := do
  if (← next?).isSome then reject .documentEnd

/-- What stands behind the imports. -/
def contents (imports : List ImportDeclaration) : Parser Document := do
  match ← next? with
  | some (.keyword .platformKw) => return .platform (← platform imports)
  | some (.keyword .abstractKw) => return .platform (← platform imports)
  | some (.keyword .libraryKw) => return .library (← library imports)
  | _ => return .execution (← execution imports)

def document : Parser Document := do
  let imports ← repeatWhile (· = some (.keyword .importKw)) importDeclaration
  let document ← contents imports
  documentEnd
  return document

end CrossModel.Parser

namespace CrossModel

/-- Reads a document from the lexemes before a cursor. -/
def Document.ofLexemes (cursor : Cursor) : Except ParseError Document :=
  if cursor.rest.isEmpty then .error ⟨.emptyDocument, .zero⟩
  else (Parser.document.run cursor).map (·.1)

/-- Reads a document from text and places it at a location. -/
def Document.parse (source location : String) : Except ParseError Document :=
  (Document.ofLexemes (.ofText source)).map (·.relocate location)

end CrossModel
