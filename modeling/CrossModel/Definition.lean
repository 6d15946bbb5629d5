import CrossModel.Document.Basic

/-!
# Definitions

Imports give definitions: platforms and libraries that are shared by everyone who imports them. Each
one that is made gets a number of its own, so two definitions with equal content can still be told
apart.
-/

namespace CrossModel

universe u

/-- A value with the number of the instance that it is. -/
structure Shared (α : Type u) where
  id : Nat
  content : α
deriving DecidableEq, Repr, Inhabited

inductive Definition where
  | platform (shared : Shared Platform)
  | library (shared : Shared Library)
deriving DecidableEq, Repr, Inhabited

namespace Definition

/-- The definition that a document holds, as instance number `id`. Execution models cannot be
imported. -/
def ofDocument? (id : Nat) : Document → Option Definition
  | .platform content => some (platform ⟨id, content⟩)
  | .library content => some (library ⟨id, content⟩)
  | .execution _ => none

/-- The content of a definition as a document. -/
def document : Definition → Document
  | platform shared => .platform shared.content
  | library shared => .library shared.content

def id : Definition → Nat
  | platform shared => shared.id
  | library shared => shared.id

def kind : Definition → DefinitionKind
  | platform _ => .platform
  | library _ => .library

def name : Definition → String
  | platform shared => shared.content.name.text
  | library shared => shared.content.name.text

def location (definition : Definition) : String :=
  definition.document.location

def imports (definition : Definition) : List ImportDeclaration :=
  definition.document.imports

/-- Whether two definitions are one instance. -/
def same (a b : Definition) : Bool :=
  a.kind = b.kind && a.id = b.id

/-- Whether two definitions have the same content, locations and spans included. -/
def equalContent (a b : Definition) : Bool :=
  a.document = b.document

end Definition

end CrossModel
