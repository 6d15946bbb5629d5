import CrossModel.Link.Scope
import CrossModel.Session.Basic

/-!
# Resolving imports

An import is answered by the alias table if it has an alias, then by the cache, and otherwise it is
loaded: a bundled definition is taken before a file. What was loaded is cached. A refresh resolves
all imports of a document, and first drops from the cache what they do not ask for.
-/

namespace CrossModel.Session

/-- Reads the bundle unless that was done before. Says whether it was read. -/
def ensureBundle (session : Session) (files : FileSystem) : Step Bool :=
  match session.bundle, session.settings.bundleRoot with
  | some _, _ => { value := false, session }
  | none, none =>
    { value := true
      session := { session with bundle := some .empty }
      log := [.error
        "No bundle root configured, bundled platforms and libraries cannot be imported"] }
  | none, some root =>
    let scan := BundleScan.ofRoot files root
    let (bundle, nextId) := Bundle.empty.register session.nextId scan.entries
    { value := true
      session := { session with bundle := some bundle, nextId }
      log := scan.log ++ Bundle.registerLog scan.entries ++
        [.info (toString bundle.definitions.size ++ " bundled definition(s) registered")] }

/-- The definition that answers an import without loading. -/
def known? (session : Session) (declaration : ImportDeclaration) : Option Definition :=
  (declaration.key.aliasName.bind (session.aliases.get? declaration.kind ·)).or
    (session.cache.get? declaration.kind declaration.key)

/-- Finds the location of an import that led to a file. An alias that is not ignored stands for the
file from now on, and no other alias does; neither does any if the import has none. -/
def placeImport (session : Session) (declaration : ImportDeclaration) (file : Path) :
    Step String :=
  let retired := (session.indirections.retire file).2
  match declaration.key.aliasName with
  | none => { value := file.text, session := { session with indirections := retired } }
  | some name =>
    let location := declaration.kind.aliasLocation name
    if session.isAliasIgnored name then { value := location, session }
    else
      let bound := retired.bind location file
      { value := location
        session := { session with indirections := bound.2 }
        log := match bound.1 with
          | none => []
          | some old => [.warn (ResolveError.aliasConflict name old.text file.text).message] }

/-- Makes a definition of the document in a file. -/
def readDefinition (session : Session) (files : FileSystem) (kind : DefinitionKind) (file : Path)
    (location : String) : Except ImportFailure Definition :=
  match files.loadDocument file location with
  | .error error => .error error.importFailure
  | .ok document =>
    match Definition.ofDocument? session.nextId document with
    | some definition =>
      if definition.kind = kind then .ok definition
      else .error (.kindMismatch kind document.kind)
    | none => .error (.kindMismatch kind document.kind)

/-- Loads an import from its file. -/
def loadFile (session : Session) (files : FileSystem) (declaration : ImportDeclaration)
    (file : Path) : Step (Except ImportFailure Definition) :=
  let placed := session.placeImport declaration file
  { value := placed.session.readDefinition files declaration.kind file placed.value
    session := { placed.session with
      loadCount := placed.session.loadCount + 1, nextId := placed.session.nextId + 1 }
    log := placed.log }

/-- Loads an import, from the bundle if it has a match and from a file otherwise. -/
def load (session : Session) (files : FileSystem) (declaration : ImportDeclaration) :
    Step (Except ImportFailure Definition) :=
  let ready := session.ensureBundle files
  match ready.session.bundled? (declaration.kind.bundleLocation declaration.path) with
  | some definition =>
    { value :=
        if definition.kind = declaration.kind then .ok definition
        else .error (.kindMismatch declaration.kind (.definition definition.kind))
      session := ready.session
      log := ready.log }
  | none =>
    match ready.session.settings.locate files declaration.path with
    | none => { value := .error .notFound, session := ready.session, log := ready.log }
    | some file =>
      let loaded := ready.session.loadFile files declaration file
      { loaded with log := ready.log ++ loaded.log }

def resolve (session : Session) (files : FileSystem) (declaration : ImportDeclaration) :
    Step (Except ResolveError Definition) :=
  match session.known? declaration with
  | some definition => { value := .ok definition, session }
  | none =>
    let loaded := session.load files declaration
    match loaded.value with
    | .ok definition =>
      { value := .ok definition
        session := loaded.session.registerImport declaration.key definition
        log := loaded.log }
    | .error reason =>
      let error := ResolveError.unresolvedImport declaration.key reason
      { value := .error error
        session := loaded.session
        log := loaded.log ++ [.error error.message] }

/-- Resolves imports one after the other. -/
def resolveAll (session : Session) (files : FileSystem) :
    List ImportDeclaration → Step (List (Except ResolveError Definition))
  | [] => { value := [], session }
  | declaration :: rest =>
    let first := session.resolve files declaration
    let others := first.session.resolveAll files rest
    { value := first.value :: others.value
      session := others.session
      log := first.log ++ others.log }

/-- Drops from the cache what is not imported under any of the keys. -/
def evictExcept (session : Session) (keep : List ImportKey) : Step Unit :=
  let retained := session.cache.retain keep.contains
  { value := ()
    session := { session with cache := retained.2 }
    log := retained.1.map fun (kind, key) =>
      .info ("Removing unused " ++ kind.text ++ " import " ++ key.path ++ " (alias=" ++
        key.aliasText ++ ")") }

/-- Resolves all imports of a document, and drops all others from the cache. -/
def refreshResults (session : Session) (files : FileSystem)
    (imports : List ImportDeclaration) : Step (List (Except ResolveError Definition)) :=
  let evicted := session.evictExcept (imports.map (·.key))
  let resolved := evicted.session.resolveAll files imports
  { resolved with log := evicted.log ++ resolved.log }

/-- The definitions that the imports of a document give. -/
def refresh (session : Session) (files : FileSystem) (imports : List ImportDeclaration) :
    Step (List Definition) :=
  let refreshed := session.refreshResults files imports
  { value := refreshed.value.filterMap (·.toOption)
    session := refreshed.session
    log := refreshed.log }

/-- The scope with what became of an import. -/
def pushResult (scope : Scope) :
    ImportDeclaration × Except ResolveError Definition → Scope
  | (declaration, .ok definition) =>
    scope.push declaration.key.aliasName .declaration definition
  | (declaration, .error error) => scope.pushFailure ⟨declaration, error⟩

/-- The scope with the alias table behind it. -/
def pushAliases (aliases : AliasTable) (scope : Scope) : Scope :=
  let withPlatforms := aliases.platforms.entries.foldl
    (fun scope (name, shared) => scope.push (some name) .aliasTable (.platform shared)) scope
  aliases.libraries.entries.foldl
    (fun scope (name, shared) => scope.push (some name) .aliasTable (.library shared))
    withPlatforms

/-- The scope of a document: its imports in their order, then the alias table in the order of
registration. -/
def importScope (session : Session) (files : FileSystem) (imports : List ImportDeclaration) :
    Step Scope :=
  let refreshed := session.refreshResults files imports
  { value := pushAliases refreshed.session.aliases
      ((imports.zip refreshed.value).foldl pushResult .empty)
    session := refreshed.session
    log := refreshed.log }

end CrossModel.Session
