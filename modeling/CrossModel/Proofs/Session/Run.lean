import CrossModel.Session.Link

/-!
# Runs of a session

A run is any sequence of operations on a session. Files can change between two operations, so each
one is given with the files that it finds.
-/

namespace CrossModel.Session

/-- What can be done with a session. -/
inductive Operation where
  | resolve (declaration : ImportDeclaration)
  | refresh (imports : List ImportDeclaration)
  | refreshResults (imports : List ImportDeclaration)
  | importScope (imports : List ImportDeclaration)
  | linkExecution (model : Execution)
  | linkPlatform (platform : Platform)
  | check (document : Document)
  | ensureBundle
  | ignoreAlias (name : String)
  | adopt (document : Document)
  | registerAlias (name : String) (definition : Definition)
  | registerImport (path : String) (aliasName : Option String) (definition : Definition)
  | updateImport (definition : Definition)
  | reset

/-- Whether an operation hands a definition to the session that does not come from an import. -/
def Operation.handsOver : Operation → Bool
  | registerAlias _ _ => true
  | registerImport _ _ _ => true
  | updateImport _ => true
  | _ => false

/-- The imports that an operation refreshes, if it does. -/
def Operation.refreshed? : Operation → Option (List ImportDeclaration)
  | refresh imports => some imports
  | refreshResults imports => some imports
  | importScope imports => some imports
  | linkExecution model => some model.imports
  | linkPlatform platform => some platform.imports
  | check document => some document.imports
  | _ => none

/-- The session after an operation. -/
def perform (session : Session) (files : FileSystem) : Operation → Session
  | .resolve declaration => (session.resolve files declaration).session
  | .refresh imports => (session.refresh files imports).session
  | .refreshResults imports => (session.refreshResults files imports).session
  | .importScope imports => (session.importScope files imports).session
  | .linkExecution model => (session.linkExecution files model).session
  | .linkPlatform platform => (session.linkPlatform files platform).session
  | .check document => (session.check files document).session
  | .ensureBundle => (session.ensureBundle files).session
  | .ignoreAlias name => session.ignoreAlias name
  | .adopt document => (session.adopt document).session
  | .registerAlias name definition => (session.registerAlias name definition).session
  | .registerImport path aliasName definition =>
    session.registerImport (.of path aliasName) definition
  | .updateImport definition => (session.updateImport definition).session
  | .reset => session.reset

/-- The session after a run. -/
def run (session : Session) (history : List (FileSystem × Operation)) : Session :=
  history.foldl (fun session step => session.perform step.1 step.2) session

theorem run_append (session : Session) (past future : List (FileSystem × Operation)) :
    session.run (past ++ future) = (session.run past).run future :=
  List.foldl_append

/-- What every operation of a run preserves, the run preserves. -/
theorem run_induction {property : Session → Prop} {session : Session}
    {history : List (FileSystem × Operation)} (hstart : property session)
    (hstep : ∀ step ∈ history, ∀ before, property before →
      property (before.perform step.1 step.2)) :
    property (session.run history) := by
  induction history generalizing session with
  | nil => exact hstart
  | cons step rest ih =>
    apply ih
    · exact hstep step List.mem_cons_self session hstart
    · intro later hlater
      exact hstep later (List.mem_cons_of_mem step hlater)

/-- Ignoring an alias changes nothing but which aliases are ignored. -/
theorem ignoreAlias_eq (session : Session) (name : String) :
    ∃ ignoredAliases, session.ignoreAlias name = { session with ignoredAliases } := by
  unfold ignoreAlias
  split
  · exact ⟨session.ignoredAliases, rfl⟩
  · exact ⟨_, rfl⟩

/-- Checking a document changes a session as refreshing its imports does. -/
theorem check_session (session : Session) (files : FileSystem) (document : Document) :
    (session.check files document).session =
      (session.refreshResults files document.imports).session := by
  cases document <;> rfl

/-- All operations that refresh imports change a session in the same way. -/
theorem perform_of_refreshed? {operation : Operation} {imports : List ImportDeclaration}
    (h : operation.refreshed? = some imports) (session : Session) (files : FileSystem) :
    session.perform files operation = (session.refreshResults files imports).session := by
  cases operation with
  | refresh others => cases h; rfl
  | refreshResults others => cases h; rfl
  | importScope others => cases h; rfl
  | linkExecution model => cases h; rfl
  | linkPlatform platform => cases h; rfl
  | check document =>
    cases h
    exact check_session session files document
  | _ => cases h

/-! ## A workspace for examples -/

def sampleSettings : Settings := .ofDirectory ⟨"/work"⟩

/-- A directory with one platform. -/
def sampleFiles : FileSystem :=
  FileSystem.empty.writeFile ⟨"/work/Base.platform"⟩
    "platform Base \x7b provider Clock \x7b event Tick \x7d \x7d".toUTF8

def baseImport : ImportDeclaration :=
  { kind := .platform, path := "Base.platform", aliasName := some "base" }

def missingImport : ImportDeclaration :=
  { kind := .library, path := "Missing.library" }

end CrossModel.Session
