import CrossModel.Proofs.Session.Refresh
import CrossModel.Proofs.Session.Update
import Mathlib.Data.List.Induction

/-!
# The bundle is read once

A session asks for its bundle when it is told to, and whenever an import is answered neither by the
alias table nor by the cache. This module lists these requests along a run, each with the session
and the files that it finds. Only the first request since the last reset reads the bundle (`Asks`),
and what it has read stays as it is, whatever is done to the session or to the files.
-/

namespace CrossModel.Session

/-! ## Requests -/

/-- The session at the moment at which it asks for its bundle, and the files that it finds. -/
structure BundleRequest where
  session : Session
  files : FileSystem

namespace BundleRequest

/-- What becomes of the request. -/
def answer (request : BundleRequest) : Step Bool :=
  request.session.ensureBundle request.files

end BundleRequest

/-- The request of resolving an import, if the import is not known. -/
def importRequest (session : Session) (files : FileSystem) (declaration : ImportDeclaration) :
    List BundleRequest :=
  if (session.known? declaration).isNone then [⟨session, files⟩] else []

/-- The requests of resolving imports one after the other. -/
def importRequests (session : Session) (files : FileSystem) :
    List ImportDeclaration → List BundleRequest
  | [] => []
  | declaration :: rest =>
    session.importRequest files declaration ++
      (session.resolve files declaration).session.importRequests files rest

/-- The requests of an operation. A refresh evicts before it resolves. -/
def operationRequests (session : Session) (files : FileSystem) (operation : Operation) :
    List BundleRequest :=
  match operation.refreshed? with
  | some imports => (session.evicted imports).importRequests files imports
  | none =>
    match operation with
    | .resolve declaration => session.importRequest files declaration
    | .ensureBundle => [⟨session, files⟩]
    | _ => []

/-- The requests of a run. -/
def bundleRequests (session : Session) : List (FileSystem × Operation) → List BundleRequest
  | [] => []
  | (files, operation) :: rest =>
    session.operationRequests files operation ++
      (session.perform files operation).bundleRequests rest

/-! ## What requests do to a session -/

/-- The session reads its bundle if it has not done so. -/
theorem ensureBundle_value (session : Session) (files : FileSystem) :
    (session.ensureBundle files).value = session.bundle.isNone := by
  unfold ensureBundle
  cases session.bundle with
  | some bundle => rfl
  | none => cases session.settings.bundleRoot <;> rfl

/-- These requests were made between two sessions. If the earlier one has a bundle, they find it and
leave it. Otherwise the first of them reads the bundle that all others find. -/
structure Asks (earlier later : Session) (requests : List BundleRequest) : Prop where
  kept : earlier.bundle.isSome → later.bundle = earlier.bundle ∧
    ∀ request ∈ requests, request.session.bundle = earlier.bundle
  untouched : earlier.bundle = none → requests = [] → later.bundle = none
  read : earlier.bundle = none → ∀ first others, requests = first :: others →
    first.session.bundle = none ∧ later.bundle = first.answer.session.bundle ∧
    ∀ request ∈ others, request.session.bundle = later.bundle

theorem BundleRequest.isSome_bundle_answer (request : BundleRequest) :
    request.answer.session.bundle.isSome := by
  obtain ⟨bundle, nextId, heq⟩ := ensureBundle_session request.session request.files
  rw [answer, heq]
  rfl

namespace Asks

variable {earlier between later : Session} {requests more : List BundleRequest}

theorem nil (h : later.bundle = earlier.bundle) : Asks earlier later [] where
  kept _ := ⟨h, nofun⟩
  untouched hnone _ := h.trans hnone
  read _ _ _ heq := by cases heq

theorem single {files : FileSystem}
    (h : later.bundle = (earlier.ensureBundle files).session.bundle) :
    Asks earlier later [⟨earlier, files⟩] where
  kept hsome := by
    obtain ⟨bundle, hbundle⟩ := Option.isSome_iff_exists.1 hsome
    refine ⟨?_, ?_⟩
    · rw [h, ensureBundle_of_bundle files hbundle]
    · intro request hrequest
      rw [List.mem_singleton.1 hrequest]
  untouched _ heq := by cases heq
  read hnone first others heq := by
    cases heq
    exact ⟨hnone, h, nofun⟩

theorem append (hfirst : Asks earlier between requests) (hsecond : Asks between later more) :
    Asks earlier later (requests ++ more) where
  kept hsome := by
    obtain ⟨hbetween, hrequests⟩ := hfirst.kept hsome
    obtain ⟨hlater, hmore⟩ := hsecond.kept (hbetween ▸ hsome)
    refine ⟨hlater.trans hbetween, ?_⟩
    intro request hrequest
    rcases List.mem_append.1 hrequest with hrequest | hrequest
    · exact hrequests request hrequest
    · exact (hmore request hrequest).trans hbetween
  untouched hnone hnil := by
    obtain ⟨hrequests, hmore⟩ := List.append_eq_nil_iff.1 hnil
    exact hsecond.untouched (hfirst.untouched hnone hrequests) hmore
  read hnone first others heq := by
    cases requests with
    | nil => exact hsecond.read (hfirst.untouched hnone rfl) first others heq
    | cons head tail =>
      -- The first part has read the bundle, so the second part only finds it.
      rw [List.cons_append, List.cons.injEq] at heq
      obtain ⟨rfl, rfl⟩ := heq
      obtain ⟨hhead, hbetween, htail⟩ := hfirst.read hnone head tail rfl
      have hsome : between.bundle.isSome := by
        rw [hbetween]
        exact head.isSome_bundle_answer
      obtain ⟨hlater, hmore⟩ := hsecond.kept hsome
      refine ⟨hhead, hlater.trans hbetween, ?_⟩
      intro request hrequest
      rcases List.mem_append.1 hrequest with hrequest | hrequest
      · exact (htail request hrequest).trans hlater.symm
      · exact (hmore request hrequest).trans hlater.symm

end Asks

/-! ## Steps -/

theorem asks_resolve (session : Session) (files : FileSystem) (declaration : ImportDeclaration) :
    Asks session (session.resolve files declaration).session
      (session.importRequest files declaration) := by
  have hload := bundle_load session files declaration
  unfold importRequest
  rcases resolve_cases session files declaration with
    ⟨definition, hknown, hresolve⟩ | ⟨definition, hknown, -, -, hresolve⟩ |
    ⟨reason, hknown, -, hresolve⟩
  · rw [hresolve, hknown]
    exact .nil rfl
  · rw [hresolve, hknown]
    exact .single hload
  · rw [hresolve, hknown]
    exact .single hload

theorem asks_resolveAll (session : Session) (files : FileSystem)
    (imports : List ImportDeclaration) :
    Asks session (session.resolveAll files imports).session
      (session.importRequests files imports) := by
  induction imports generalizing session with
  | nil => exact .nil rfl
  | cons declaration rest ih => exact (asks_resolve session files declaration).append (ih _)

theorem bundle_ignoreAlias (session : Session) (name : String) :
    (session.ignoreAlias name).bundle = session.bundle := by
  obtain ⟨ignored, heq⟩ := ignoreAlias_eq session name
  rw [heq]

theorem asks_perform (session : Session) (files : FileSystem) {operation : Operation}
    (h : operation ≠ .reset) :
    Asks session (session.perform files operation)
      (session.operationRequests files operation) := by
  unfold operationRequests
  cases hrefreshed : operation.refreshed? with
  | some imports =>
    rw [perform_of_refreshed? hrefreshed, refreshResults_session]
    have hevicted : Asks session (session.evicted imports) [] := .nil rfl
    exact hevicted.append (asks_resolveAll (session.evicted imports) files imports)
  | none =>
    cases operation with
    | resolve declaration => exact asks_resolve session files declaration
    | ensureBundle => exact .single rfl
    | ignoreAlias name => exact .nil (bundle_ignoreAlias session name)
    | adopt document => exact .nil rfl
    | registerAlias name definition => exact .nil rfl
    | registerImport path aliasName definition => exact .nil rfl
    | updateImport definition => exact .nil rfl
    | reset => exact absurd rfl h
    | _ => cases hrefreshed

/-! ## Runs -/

theorem asks_run (session : Session) {history : List (FileSystem × Operation)}
    (h : ∀ step ∈ history, step.2 ≠ .reset) :
    Asks session (session.run history) (session.bundleRequests history) := by
  induction history generalizing session with
  | nil => exact .nil rfl
  | cons step rest ih =>
    obtain ⟨files, operation⟩ := step
    obtain ⟨hstep, hrest⟩ := List.forall_mem_cons.1 h
    exact (asks_perform session files hstep).append (ih _ hrest)

/-- A session that was just started or reset has no bundle. -/
theorem bundle_run_of_reset (settings : Settings) {history : List (FileSystem × Operation)}
    (h : ∀ step ∈ history.getLast?, step.2 = .reset) :
    ((start settings).run history).bundle = none := by
  cases history using List.reverseRecOn with
  | nil => rfl
  | append_singleton earlier step =>
    have hreset : step.2 = .reset := h step List.getLast?_concat
    rw [run_append, run, List.foldl_cons, List.foldl_nil, hreset]
    rfl

/-- Without a bundle at the start, a run has one at the end if and only if it made a request, and it
is the one that the first request has read. -/
theorem Asks.bundle_eq {earlier later : Session} {requests : List BundleRequest}
    (h : Asks earlier later requests) (hnone : earlier.bundle = none) :
    later.bundle = requests.head?.bind (·.answer.session.bundle) := by
  cases requests with
  | nil => exact h.untouched hnone rfl
  | cons first others => exact (h.read hnone first others rfl).2.1

/-- Without a bundle at the start, the first request reads it and no other does. -/
theorem Asks.reads_iff {earlier later : Session} {requests : List BundleRequest}
    (h : Asks earlier later requests) (hnone : earlier.bundle = none) {index : Nat}
    {request : BundleRequest} (hrequest : requests[index]? = some request) :
    request.answer.value = true ↔ index = 0 := by
  rw [BundleRequest.answer, ensureBundle_value]
  cases requests with
  | nil => cases hrequest
  | cons first others =>
    obtain ⟨hfirst, hlater, hothers⟩ := h.read hnone first others rfl
    cases index with
    | zero =>
      cases hrequest
      simp [hfirst]
    | succ index =>
      have hbundle := hothers request (List.mem_of_getElem? hrequest)
      have hsome := first.isSome_bundle_answer
      rw [← hlater, ← hbundle] at hsome
      simp [Option.isNone_eq_false_iff.2 hsome]

/-- From the start or a reset up to the next reset, the bundle is read at most once: by the first
request and by no other. Before that request the session has no bundle, and from then on it keeps
the one that the request has read, so that every location leads to the same instance, or to none,
whatever is done to the session or to the files. -/
theorem bundle_read_once (settings : Settings) (earlier history : List (FileSystem × Operation))
    (hearlier : ∀ step ∈ earlier.getLast?, step.2 = .reset)
    (hhistory : ∀ step ∈ history, step.2 ≠ .reset) :
    let session := (start settings).run earlier
    (∀ index request, (session.bundleRequests history)[index]? = some request →
      (request.answer.value = true ↔ index = 0)) ∧
    ∀ past future, history = past ++ future →
      (session.run past).bundle =
        (session.bundleRequests past).head?.bind (·.answer.session.bundle) ∧
      ((session.run past).isBundleLoaded = true ↔ session.bundleRequests past ≠ []) ∧
      (session.bundleRequests past ≠ [] → ∀ location,
        (session.run history).bundled? location = (session.run past).bundled? location) := by
  intro session
  have hnone : session.bundle = none := bundle_run_of_reset settings hearlier
  refine ⟨fun index request => (asks_run session hhistory).reads_iff hnone, ?_⟩
  rintro past future rfl
  rw [List.forall_mem_append] at hhistory
  have hbundle := (asks_run session hhistory.1).bundle_eq hnone
  have hloaded : (session.run past).isBundleLoaded = true ↔ session.bundleRequests past ≠ [] := by
    rw [isBundleLoaded, hbundle]
    cases session.bundleRequests past with
    | nil => simp
    | cons first others =>
      simpa using first.isSome_bundle_answer
  refine ⟨hbundle, hloaded, ?_⟩
  intro hrequested location
  have hkept := ((asks_run (session.run past) hhistory.2).kept (hloaded.2 hrequested)).1
  rw [bundled?, bundled?, run_append, hkept]

/-- Settings with a bundle, and no files but the one platform that it holds. -/
def bundleSettings : Settings :=
  { sampleSettings with bundleRoot := some ⟨"/home"⟩ }

def bundleFiles : FileSystem :=
  FileSystem.empty.writeFile ⟨"/home/plugins/platforms/Base.platform"⟩ "platform Base".toUTF8

/-- The first import is answered by its alias, so that the second one is the first to ask. -/
def requestingRun : List (FileSystem × Operation) :=
  [(.empty, .registerAlias "base" (namedPlatform 7 "Base")), (.empty, .resolve baseImport),
    (bundleFiles, .resolve missingImport)]

def laterRun : List (FileSystem × Operation) :=
  [.refresh [missingImport], .updateImport (namedPlatform 8 "Base"), .ensureBundle].map
    (FileSystem.empty, ·)

theorem bundle_read_once_requestingRun :
    let session := (start bundleSettings).run [(.empty, .ensureBundle), (.empty, .reset)]
    session.bundleRequests requestingRun ≠ [] ∧
    ((session.run requestingRun).bundled? "core://platforms/Base.platform").isSome = true ∧
    (session.run (requestingRun ++ laterRun)).bundled? "core://platforms/Base.platform" =
      (session.run requestingRun).bundled? "core://platforms/Base.platform" := by
  intro session
  have hreset : ∀ step ∈ ([(.empty, .ensureBundle), (.empty, .reset)] :
      List (FileSystem × Operation)).getLast?, step.2 = .reset := by
    intro step hstep
    cases hstep
    rfl
  have hhistory : ∀ step ∈ requestingRun ++ laterRun, step.2 ≠ .reset := by
    simp [requestingRun, laterRun]
  obtain ⟨-, hfrozen⟩ := bundle_read_once bundleSettings _ _ hreset hhistory
  obtain ⟨-, hloaded, hkept⟩ := hfrozen requestingRun laterRun rfl
  have hrequested : session.bundleRequests requestingRun ≠ [] := hloaded.1 (by decide +kernel)
  exact ⟨hrequested, by decide +kernel, hkept hrequested _⟩

end CrossModel.Session
