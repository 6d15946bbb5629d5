import CrossModel.Link.Execution
import CrossModel.Link.Definitions
import CrossModel.Session.Resolve

/-!
# Linking and checking documents

A document is linked against the scope that its imports give in a session. Checking it gives the
diagnostics alone.
-/

namespace CrossModel.Session

def linkExecution (session : Session) (files : FileSystem) (model : Execution) :
    Step LinkedExecution :=
  let inScope := session.importScope files model.imports
  { value := inScope.value.linkExecution model
    session := inScope.session
    log := inScope.log ++ Scope.linkExecutionLog model }

def linkPlatform (session : Session) (files : FileSystem) (platform : Platform) :
    Step LinkedPlatform :=
  let inScope := session.importScope files platform.imports
  { value := inScope.value.linkPlatform platform
    session := inScope.session
    log := inScope.log }

/-- The diagnostics of a library: those of its imports, then those of its links. -/
def checkLibrary (session : Session) (files : FileSystem) (library : Library) :
    Step (List Diagnostic) :=
  let inScope := session.importScope files library.imports
  { value := Diagnostic.inSourceOrder
        (inScope.value.failures.map (Diagnostic.ofFailedImport library.location)) ++
      library.link.diagnostics
    session := inScope.session
    log := inScope.log }

/-- The diagnostics of a document. -/
def check (session : Session) (files : FileSystem) : Document → Step (List Diagnostic)
  | .execution model =>
    let linked := session.linkExecution files model
    { value := linked.value.diagnostics, session := linked.session, log := linked.log }
  | .platform platform =>
    let linked := session.linkPlatform files platform
    { value := linked.value.diagnostics, session := linked.session, log := linked.log }
  | .library library => session.checkLibrary files library

end CrossModel.Session
