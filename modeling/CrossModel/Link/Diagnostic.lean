import CrossModel.Link.Basic

/-!
# Diagnostics

What is reported to the author of a document: imports that fail and references that lead nowhere,
in the order of the source.
-/

namespace CrossModel

inductive Severity where
  | error | warning | info | hint
deriving DecidableEq, Repr, Inhabited

/-- The number under which editors know a severity. -/
def Severity.number : Severity → Nat
  | error => 1
  | warning => 2
  | info => 3
  | hint => 4

structure Diagnostic where
  location : String
  span : Span
  severity : Severity := .error
  code : Option String := none
  message : String
  /-- The text that is at fault. -/
  data : Option String := none
deriving DecidableEq, Repr, Inhabited

/-- An import of a document that gave no definition. -/
structure FailedImport where
  declaration : ImportDeclaration
  error : ResolveError
deriving DecidableEq, Repr, Inhabited

namespace Diagnostic

def undefinedReferenceCode : String := "E0001"

def invalidImportCode : String := "E0014"

def stateNotResolvedCode : String := "E0015"

/-- The report of a reference that leads nowhere. -/
def ofUnresolved (location : String) (relation : Relation) (reference : Reference) :
    Diagnostic :=
  { location, span := reference.span, data := some reference.text
    code := some (match relation with
      | .transitionState => stateNotResolvedCode
      | _ => undefinedReferenceCode)
    message := match relation with
      | .transitionState => reference.text ++ " cannot be resolved to a State"
      | _ => "undefined reference: '" ++ reference.text ++ "'" }

/-- The report of an import that failed. -/
def ofFailedImport (location : String) (failed : FailedImport) : Diagnostic where
  location
  span := failed.declaration.span
  code := some invalidImportCode
  message := failed.error.message
  data := some failed.declaration.path

/-- The reports of a link: one if it is unresolved. -/
def ofLink {α : Type} (location : String) (relation : Relation) (link : Link α) :
    List Diagnostic :=
  (link.unresolved?.map (ofUnresolved location relation)).toList

/-- Diagnostics by the start of their spans; those with the same start keep their order. -/
def inSourceOrder (diagnostics : List Diagnostic) : List Diagnostic :=
  diagnostics.mergeSort fun a b => decide (a.span.start ≤ b.span.start)

def errorCount (diagnostics : List Diagnostic) : Nat :=
  diagnostics.countP (·.severity = .error)

def hasErrors (diagnostics : List Diagnostic) : Bool :=
  diagnostics.any (·.severity = .error)

end Diagnostic

end CrossModel
