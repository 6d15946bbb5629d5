import CrossModel.Text.Position

/-!
# Names, references and import declarations

An import asks for a platform or a library by a path, and may give it an alias. An empty alias
counts as none wherever imports are compared or shown.
-/

namespace CrossModel

/-- A declared name and where it stands. -/
structure Name where
  text : String
  span : Span
deriving DecidableEq, Repr, Inhabited

/-- The text of a reference to something declared elsewhere, and where it stands. -/
structure Reference where
  text : String
  span : Span
deriving DecidableEq, Repr, Inhabited

/-- What an import can ask for. -/
inductive DefinitionKind where
  | platform
  | library
deriving DecidableEq, Repr, Inhabited

namespace DefinitionKind

def text : DefinitionKind → String
  | platform => "platform"
  | library => "library"

/-- The extension of files that hold definitions of this kind. -/
def extension : DefinitionKind → String
  | platform => "platform"
  | library => "intent"

end DefinitionKind

/-- An alias as it is compared and shown: the empty one is none. -/
def effectiveAlias (given : Option String) : Option String :=
  given.filter (· ≠ "")

/-- What tells two imports of one kind apart. -/
structure ImportKey where
  path : String
  aliasName : Option String
deriving DecidableEq, Repr, Inhabited

namespace ImportKey

/-- The key of an import with this path and alias; an empty alias is none. -/
def of (path : String) (aliasName : Option String) : ImportKey :=
  ⟨path, effectiveAlias aliasName⟩

/-- The alias for messages. -/
def aliasText (key : ImportKey) : String :=
  key.aliasName.getD "none"

end ImportKey

/-- The declaration `import platform "path" as name`, or the same for a library. -/
structure ImportDeclaration where
  kind : DefinitionKind
  path : String
  /-- The alias as written, which may be empty. -/
  aliasName : Option String := none
  span : Span := Span.zero
deriving DecidableEq, Repr, Inhabited

namespace ImportDeclaration

/-- The key under which the import is cached. -/
def key (declaration : ImportDeclaration) : ImportKey :=
  .of declaration.path declaration.aliasName

/-- The declaration in words; an empty alias is left out. -/
def display (declaration : ImportDeclaration) : String :=
  "import " ++ declaration.kind.text ++ " \"" ++ declaration.path ++ "\"" ++
    match declaration.key.aliasName with
    | some name => " as " ++ name
    | none => ""

end ImportDeclaration

end CrossModel
