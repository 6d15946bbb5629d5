import CrossModel.Catalog
import CrossModel.Files.Indirections
import CrossModel.Session.Bundle
import CrossModel.Text.Escaped

/-!
# Sessions

A session remembers what was imported and under which aliases, so that everyone who imports a
definition shares it. Its operations are functions that give a value, the session after them and the
lines they log.
-/

namespace CrossModel

universe u

structure Session where
  settings : Settings
  cache : ImportCache := .empty
  aliases : AliasTable := .empty
  indirections : Indirections := .empty
  /-- Aliases whose locations are not to stand for files. -/
  ignoredAliases : List String := []
  /-- The bundled definitions, once they have been read. -/
  bundle : Option Bundle := none
  /-- The number of files that imports led to. -/
  loadCount : Nat := 0
  /-- The number of the next definition that is made. -/
  nextId : Nat := 0
deriving DecidableEq, Repr, Inhabited

/-- The outcome of an operation on a session. -/
structure Step (α : Type u) where
  value : α
  session : Session
  log : Log := []

namespace Session

def start (settings : Settings) : Session where
  settings

/-- What starting a session in an environment logs. -/
def environmentLog (home : Option String) : Log :=
  if (home.filter (· ≠ "")).isSome then []
  else [.error "LINKAGE_HOME environment variable not set, no bundled definitions to import"]

/-- The session as it was started; the numbers of definitions go on. -/
def reset (session : Session) : Session :=
  { start session.settings with nextId := session.nextId }

/-- Makes a definition of a document that does not come from an import. -/
def adopt (session : Session) (document : Document) : Step (Option Definition) where
  value := Definition.ofDocument? session.nextId document
  session := { session with nextId := session.nextId + 1 }

def isBundleLoaded (session : Session) : Bool :=
  session.bundle.isSome

/-- The bundled definition at a location. -/
def bundled? (session : Session) (location : String) : Option Definition :=
  session.bundle.bind (·.find? location)

/-- All bundled definitions, sorted by location. -/
def bundledDefinitions (session : Session) : List Definition :=
  (session.bundle.map (·.sorted)).getD []

/-- The file that an alias stands for. -/
def aliasTarget? (session : Session) (kind : DefinitionKind) (name : String) : Option Path :=
  session.indirections.target? (kind.aliasLocation name)

def isAliasIgnored (session : Session) (name : String) : Bool :=
  session.ignoredAliases.contains name

/-- Lets no location of this alias stand for a file from now on. -/
def ignoreAlias (session : Session) (name : String) : Session :=
  if session.isAliasIgnored name then session
  else { session with ignoredAliases := session.ignoredAliases ++ [name] }

/-- Registers a definition under an alias, and gives the one that it replaces. -/
def registerAlias (session : Session) (name : String) (definition : Definition) :
    Step (Option Definition) :=
  let filed := session.aliases.insert name definition
  { value := filed.1
    session := { session with aliases := filed.2 }
    log := match filed.1 with
      | none => []
      | some old =>
        if old.same definition then []
        else [.warn (ResolveError.aliasConflict name old.location definition.location).message] }

/-- Caches a definition as if an import had led to it. -/
def registerImport (session : Session) (key : ImportKey) (definition : Definition) : Session :=
  { session with cache := (session.cache.insert key definition).2 }

/-- Replaces all cached definitions of the kind and name of the given one, and counts them. -/
def updateImport (session : Session) (definition : Definition) : Step Nat :=
  let replaced := session.cache.replaceNamed definition
  { value := replaced.1
    session := { session with cache := replaced.2 }
    log := [.info ("Updated " ++ toString replaced.1 ++ " cached import(s) of " ++
      definition.kind.text ++ " " ++ definition.name)] }

end Session

/-! ## Sessions for people who look into them -/

def Settings.describe (settings : Settings) : String :=
  let root := match settings.bundleRoot with
    | none => "None"
    | some path => "Some(" ++ escapedText path.text ++ ")"
  "ResolverConfig \x7b core_root: " ++ root ++ ", working_dir: " ++
    escapedText settings.workingDirectory.text ++ ", workspace_root: " ++
    escapedText settings.workspaceRoot.text ++ " \x7d"

/-- The session, known by the text `id`, with its settings and the sizes of its tables. -/
def Session.describe (session : Session) (id : String) : String :=
  "ResolutionContext \x7b id: " ++ id ++ ", config: " ++ session.settings.describe ++
    ", cached: " ++ toString session.cache.size ++ ", aliases: " ++
    toString session.aliases.size ++ ", .. \x7d"

end CrossModel
