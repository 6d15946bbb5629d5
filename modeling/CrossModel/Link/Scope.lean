import CrossModel.Definition
import CrossModel.Link.Diagnostic
import CrossModel.Link.QualifiedName

/-!
# Scopes

A scope holds the definitions that a document can refer to, in order of precedence, and the imports
that failed. All look-ups take the first match: providers by the first platform that answers to a
name, events from libraries before those from platforms.
-/

namespace CrossModel

universe u

/-- How a definition came into scope. -/
inductive ScopeOrigin where
  | declaration
  | aliasTable
deriving DecidableEq, Repr, Inhabited

/-- A definition in scope. -/
structure Scoped (α : Type u) where
  aliasName : Option String
  shared : Shared α
  origin : ScopeOrigin
deriving DecidableEq, Repr, Inhabited

/-- Whether a platform in scope has this name or alias. -/
def Scoped.answersTo (entry : Scoped Platform) (name : String) : Bool :=
  entry.shared.content.name.text = name || entry.aliasName = some name

/-- A provider of a shared platform, by its index. -/
structure ProviderHandle where
  platform : Shared Platform
  index : Nat
deriving DecidableEq, Repr, Inhabited

namespace ProviderHandle

def provider? (handle : ProviderHandle) : Option Provider :=
  handle.platform.content.providers[handle.index]?

/-- The name of the provider behind that of its platform. -/
def qualifiedName (handle : ProviderHandle) : QualifiedName where
  platform := handle.platform.content.name.text
  provider := (handle.provider?.map (·.name.text)).getD ""

/-- Whether two handles are for one provider of one instance. -/
def same (a b : ProviderHandle) : Bool :=
  a.platform.id = b.platform.id && a.index = b.index

end ProviderHandle

/-- An event of a shared library or platform, by its index. -/
inductive EventHandle where
  | inLibrary (library : Shared Library) (index : Nat)
  | inPlatform (platform : Shared Platform) (provider index : Nat)
deriving DecidableEq, Repr, Inhabited

namespace EventHandle

def event? : EventHandle → Option Event
  | inLibrary library index => library.content.events[index]?
  | inPlatform platform provider index =>
    platform.content.providers[provider]?.bind fun p => p.events[index]?

/-- The definition that has the event. -/
def owner : EventHandle → Definition
  | inLibrary library _ => .library library
  | inPlatform platform _ _ => .platform platform

/-- Whether two handles are for one event of one instance. -/
def same : EventHandle → EventHandle → Bool
  | inLibrary a i, inLibrary b j => a.id = b.id && i = j
  | inPlatform a p i, inPlatform b q j => a.id = b.id && p = q && i = j
  | _, _ => false

/-- The handles without those that are for the same event as an earlier one. -/
def distinct (handles : List EventHandle) : List EventHandle :=
  handles.foldl (fun kept handle => if kept.any (·.same handle) then kept else kept ++ [handle]) []

/-- The first event of a library with this name. -/
def ofLibrary? (library : Shared Library) (name : String) : Option EventHandle :=
  (library.content.events.findIdx? (·.name.text = name)).map (inLibrary library)

/-- The first event with this name in the providers of a platform. -/
def ofPlatform? (platform : Shared Platform) (name : String) : Option EventHandle :=
  platform.content.providers.zipIdx.findSome? fun (provider, position) =>
    (provider.events.findIdx? (·.name.text = name)).map (inPlatform platform position)

end EventHandle

structure Scope where
  platforms : List (Scoped Platform) := []
  libraries : List (Scoped Library) := []
  failures : List FailedImport := []
deriving DecidableEq, Repr, Inhabited

namespace Scope

def empty : Scope := {}

/-- The scope with one more definition behind the others. An empty alias is none. -/
def push (scope : Scope) (aliasName : Option String) (origin : ScopeOrigin) : Definition → Scope
  | .platform shared =>
    { scope with platforms := scope.platforms ++ [⟨effectiveAlias aliasName, shared, origin⟩] }
  | .library shared =>
    { scope with libraries := scope.libraries ++ [⟨effectiveAlias aliasName, shared, origin⟩] }

/-- The scope with one more failed import. -/
def pushFailure (scope : Scope) (failed : FailedImport) : Scope :=
  { scope with failures := scope.failures ++ [failed] }

/-- Whether there is nothing to refer to. -/
def isEmpty (scope : Scope) : Bool :=
  scope.platforms.isEmpty && scope.libraries.isEmpty

/-- The first platform with this name or alias. -/
def platform? (scope : Scope) (name : String) : Option (Shared Platform) :=
  (scope.platforms.find? (·.answersTo name)).map (·.shared)

/-- The platform that another one extends; blanks around the name do not count. -/
def base? (scope : Scope) (name : String) : Option (Shared Platform) :=
  scope.platform? (trimmed name)

/-- The provider with a qualified name. -/
def providerNamed? (scope : Scope) (name : QualifiedName) : Option ProviderHandle := do
  let platform ← scope.platform? name.platform
  let index ← platform.content.providers.findIdx? (·.name.text = name.provider)
  return ⟨platform, index⟩

/-- The provider that a text refers to, if it is a qualified name. -/
def provider (scope : Scope) (text : String) : Except ResolveError (Option ProviderHandle) :=
  (QualifiedName.parse text).map scope.providerNamed?

/-- The first event with this name. -/
def event? (scope : Scope) (name : String) : Option EventHandle :=
  (scope.libraries.findSome? fun entry => EventHandle.ofLibrary? entry.shared name).or
    (scope.platforms.findSome? fun entry => EventHandle.ofPlatform? entry.shared name)

end Scope

end CrossModel
