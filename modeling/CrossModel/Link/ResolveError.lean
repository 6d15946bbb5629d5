import CrossModel.Document.Basic
import CrossModel.Document.ParseError
import CrossModel.Files.System

/-!
# Resolve errors

Why an import or a reference leads nowhere.
-/

namespace CrossModel

/-- What a reference can look for. -/
inductive SymbolKind where
  | platform | eventProvider | event | intent | state
deriving DecidableEq, Repr, Inhabited

def SymbolKind.text : SymbolKind → String
  | platform => "platform"
  | eventProvider => "event provider"
  | event => "event"
  | intent => "intent"
  | state => "state"

/-- Why an import gives no definition. -/
inductive ImportFailure where
  /-- Neither a bundled definition nor a file matches the path. -/
  | notFound
  /-- The document found is not of the kind that was asked for. -/
  | kindMismatch (expected : DefinitionKind) (found : DocumentKind)
  | unreadable (cause : FileError)
  | malformed (cause : ParseError)
deriving DecidableEq, Repr, Inhabited

def ImportFailure.message : ImportFailure → String
  | notFound => "no bundled definition or file matches the path"
  | kindMismatch expected found =>
    "expected a " ++ expected.text ++ " but the document defines a " ++ found.text
  | unreadable cause => "IO error: " ++ cause.message
  | malformed cause => "malformed content: " ++ cause.message

inductive ResolveError where
  | unresolvedImport (key : ImportKey) (reason : ImportFailure)
  /-- A text that is not `Platform.Provider`. -/
  | malformedName (text : String)
  | unresolvedSymbol (kind : SymbolKind) (name : String)
  /-- An alias that stood for something else before. -/
  | aliasConflict (aliasName previous replacement : String)
deriving DecidableEq, Repr, Inhabited

def ResolveError.message : ResolveError → String
  | unresolvedImport key reason =>
    "cannot resolve import \"" ++ key.path ++ "\" (alias=" ++ key.aliasText ++ "): " ++
      reason.message
  | malformedName text =>
    "cannot compute a qualified name from '" ++ text ++ "', expected Platform.Provider"
  | unresolvedSymbol kind name => kind.text ++ " '" ++ name ++ "' cannot be resolved"
  | aliasConflict aliasName previous replacement =>
    "alias '" ++ aliasName ++ "' re-bound from " ++ previous ++ " to " ++ replacement

end CrossModel
