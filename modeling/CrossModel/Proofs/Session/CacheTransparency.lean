import CrossModel.Proofs.Link.Instances
import CrossModel.Proofs.Session.Loading
import CrossModel.Proofs.Session.Run

/-!
# The cache is transparent

As long as the files stay the same and no definition is handed over from outside, a session answers
as if it had just been started. The invariant `Transparent` ties every cached definition to what
loading its import leads to in a fresh session. Each operation keeps it, and it determines the
answer to every import and the diagnostics of every document.
-/

namespace CrossModel.Session

/-- The session holds nothing but what the settings and the files lead to. -/
structure Transparent (settings : Settings) (files : FileSystem) (session : Session) : Prop where
  settings_eq : session.settings = settings
  aliases_eq : session.aliases = .empty
  bundled_eq : session.bundledDocument? files = (start settings).bundledDocument? files
  cached : ∀ {kind key definition}, session.cache.get? kind key = some definition →
    (start settings).loadedDocument files kind key = .ok definition.document

/-- The answer of a fresh session to an import, instances aside. -/
def freshAnswer (settings : Settings) (files : FileSystem) (declaration : ImportDeclaration) :
    Except ResolveError Document :=
  ((start settings).loadedDocument files declaration.kind declaration.key).mapError
    (.unresolvedImport declaration.key)

namespace Transparent

variable {settings : Settings} {files : FileSystem} {session later : Session}

theorem start (settings : Settings) (files : FileSystem) :
    Transparent settings files (start settings) where
  settings_eq := rfl
  aliases_eq := rfl
  bundled_eq := rfl
  cached h := by
    rw [Session.start, Catalog.get?_empty] at h
    cases h

theorem loadedDocument_eq (h : Transparent settings files session) :
    session.loadedDocument files = (Session.start settings).loadedDocument files :=
  loadedDocument_congr h.settings_eq h.bundled_eq

/-! ## Steps -/

theorem of_grown (h : Transparent settings files session) (hgrown : Grown files session later) :
    Transparent settings files later where
  settings_eq := hgrown.settings.trans h.settings_eq
  aliases_eq := hgrown.aliases.trans h.aliases_eq
  bundled_eq := hgrown.bundled.trans h.bundled_eq
  cached hcached := by
    rcases hgrown.added hcached with hbefore | hloaded
    · exact h.cached hbefore
    · rw [← h.loadedDocument_eq]
      exact hloaded

/-- A change that adds nothing to the cache and keeps settings, alias table and bundle. -/
theorem of_subset (h : Transparent settings files session)
    (hsettings : later.settings = session.settings) (haliases : later.aliases = session.aliases)
    (hbundle : later.bundle = session.bundle)
    (hcache : ∀ {kind key definition}, later.cache.get? kind key = some definition →
      session.cache.get? kind key = some definition) :
    Transparent settings files later where
  settings_eq := hsettings.trans h.settings_eq
  aliases_eq := haliases.trans h.aliases_eq
  bundled_eq := (bundledDocument?_of_same_bundle files hsettings hbundle).trans h.bundled_eq
  cached hcached := h.cached (hcache hcached)

theorem evictExcept (h : Transparent settings files session) (keep : List ImportKey) :
    Transparent settings files (session.evictExcept keep).session := by
  refine h.of_subset rfl rfl rfl ?_
  intro kind key definition hcached
  rw [Session.evictExcept, Catalog.get?_retain] at hcached
  split at hcached
  · exact hcached
  · cases hcached

theorem ensureBundle (h : Transparent settings files session) :
    Transparent settings files (session.ensureBundle files).session := by
  obtain ⟨bundle, nextId, heq⟩ := ensureBundle_session session files
  exact
    { settings_eq := (settings_ensureBundle session files).trans h.settings_eq
      aliases_eq := by rw [heq]; exact h.aliases_eq
      bundled_eq := (bundledDocument?_congr rfl).trans h.bundled_eq
      cached := fun hcached => h.cached (by rw [heq] at hcached; exact hcached) }

theorem refreshResults (h : Transparent settings files session)
    (imports : List ImportDeclaration) :
    Transparent settings files (session.refreshResults files imports).session :=
  (h.evictExcept (imports.map (·.key))).of_grown (grown_resolveAll _ files imports)

theorem ignoreAlias (h : Transparent settings files session) (name : String) :
    Transparent settings files (session.ignoreAlias name) := by
  obtain ⟨ignored, heq⟩ := session.ignoreAlias_eq name
  rw [heq]
  exact h.of_subset rfl rfl rfl id

theorem reset (h : Transparent settings files session) :
    Transparent settings files session.reset := by
  apply (start settings files).of_subset
  · exact h.settings_eq
  · rfl
  · rfl
  · exact id

theorem perform (h : Transparent settings files session) {operation : Operation}
    (hinside : operation.handsOver = false) :
    Transparent settings files (session.perform files operation) := by
  cases operation with
  | resolve declaration => exact h.of_grown (grown_resolve session files declaration)
  | refresh imports => exact h.refreshResults imports
  | refreshResults imports => exact h.refreshResults imports
  | importScope imports => exact h.refreshResults imports
  | linkExecution model => exact h.refreshResults model.imports
  | linkPlatform platform => exact h.refreshResults platform.imports
  | check document =>
    rw [Session.perform, check_session]
    exact h.refreshResults document.imports
  | ensureBundle => exact h.ensureBundle
  | ignoreAlias name => exact h.ignoreAlias name
  | adopt document => exact h.of_subset rfl rfl rfl id
  | registerAlias name definition => cases hinside
  | registerImport path aliasName definition => cases hinside
  | updateImport definition => cases hinside
  | reset => exact h.reset

/-! ## Answers -/

theorem resolve_value (h : Transparent settings files session) (declaration : ImportDeclaration) :
    (session.resolve files declaration).value.map Definition.document =
      freshAnswer settings files declaration := by
  unfold freshAnswer
  rcases resolve_cases session files declaration with
    ⟨definition, hknown, hresolve⟩ | ⟨definition, -, -, hloaded, hresolve⟩ |
    ⟨reason, -, hloaded, hresolve⟩
  · have hcached : session.cache.get? declaration.kind declaration.key = some definition := by
      rw [known?_eq, aliased?, h.aliases_eq] at hknown
      simpa using hknown
    rw [hresolve, h.cached hcached]
    rfl
  · rw [hresolve, ← h.loadedDocument_eq, hloaded]
    rfl
  · rw [hresolve, ← h.loadedDocument_eq, hloaded]
    rfl

theorem resolveAll_value (h : Transparent settings files session)
    (imports : List ImportDeclaration) :
    (session.resolveAll files imports).value.map (·.map Definition.document) =
      imports.map (freshAnswer settings files) := by
  induction imports generalizing session with
  | nil => rfl
  | cons declaration rest ih =>
    have hrest := ih (h.of_grown (grown_resolve session files declaration))
    rw [resolveAll, List.map_cons, List.map_cons, hrest, h.resolve_value]

/-! ## Diagnostics -/

/-- Outcomes with the same content enter a scope in the same way, numbers aside. -/
theorem unnumbered_pushResult {first second : Scope} (declaration : ImportDeclaration)
    {a b : Except ResolveError Definition} (hscope : first.unnumbered = second.unnumbered)
    (houtcome : a.map Definition.document = b.map Definition.document) :
    (pushResult first (declaration, a)).unnumbered =
      (pushResult second (declaration, b)).unnumbered := by
  cases a with
  | error error =>
    cases b with
    | error other =>
      cases houtcome
      rw [pushResult, pushResult, Scope.unnumbered_pushFailure, Scope.unnumbered_pushFailure,
        hscope]
    | ok other => cases houtcome
  | ok definition =>
    cases b with
    | error other => cases houtcome
    | ok other =>
      have hdocument : definition.document = other.document := Except.ok.inj houtcome
      rw [pushResult, pushResult, Scope.unnumbered_push, Scope.unnumbered_push, hscope,
        Definition.unnumbered_eq_iff.2 hdocument]

theorem unnumbered_foldl_pushResult {first second : Scope} (imports : List ImportDeclaration)
    {results others : List (Except ResolveError Definition)}
    (hscope : first.unnumbered = second.unnumbered)
    (hresults : results.map (·.map Definition.document) =
      others.map (·.map Definition.document)) :
    ((imports.zip results).foldl pushResult first).unnumbered =
      ((imports.zip others).foldl pushResult second).unnumbered := by
  induction imports generalizing first second results others with
  | nil => exact hscope
  | cons declaration rest ih =>
    cases results with
    | nil =>
      cases others with
      | nil => exact hscope
      | cons other others => cases hresults
    | cons result results =>
      cases others with
      | nil => cases hresults
      | cons other others =>
        obtain ⟨hhead, htail⟩ := List.cons.inj hresults
        exact ih (unnumbered_pushResult declaration hscope hhead) htail

/-- Two transparent sessions give a document the same scope, numbers aside. -/
theorem importScope_value (h : Transparent settings files session)
    (hother : Transparent settings files later) (imports : List ImportDeclaration) :
    (session.importScope files imports).value.unnumbered =
      (later.importScope files imports).value.unnumbered := by
  have hresults := (h.evictExcept (imports.map (·.key))).resolveAll_value imports
  have hothers := (hother.evictExcept (imports.map (·.key))).resolveAll_value imports
  have haliases := (h.refreshResults imports).aliases_eq
  have haliases' := (hother.refreshResults imports).aliases_eq
  change (pushAliases (session.refreshResults files imports).session.aliases _).unnumbered =
    (pushAliases (later.refreshResults files imports).session.aliases _).unnumbered
  rw [haliases, haliases']
  exact unnumbered_foldl_pushResult imports rfl (hresults.trans hothers.symm)

theorem check_value (h : Transparent settings files session)
    (hother : Transparent settings files later) (document : Document) :
    (session.check files document).value = (later.check files document).value := by
  cases document with
  | execution model =>
    have hscope := h.importScope_value hother model.imports
    change ((session.importScope files model.imports).value.linkExecution model).diagnostics =
      ((later.importScope files model.imports).value.linkExecution model).diagnostics
    rw [← Scope.diagnostics_linkExecution_unnumbered, hscope,
      Scope.diagnostics_linkExecution_unnumbered]
  | platform platform =>
    have hscope := h.importScope_value hother platform.imports
    change ((session.importScope files platform.imports).value.linkPlatform platform).diagnostics =
      ((later.importScope files platform.imports).value.linkPlatform platform).diagnostics
    rw [← Scope.diagnostics_linkPlatform_unnumbered, hscope,
      Scope.diagnostics_linkPlatform_unnumbered]
  | library library =>
    have hfailures : (session.importScope files library.imports).value.failures =
        (later.importScope files library.imports).value.failures := by
      have hscope := congrArg Scope.failures (h.importScope_value hother library.imports)
      exact hscope
    simp only [check, checkLibrary, hfailures]

end Transparent

/-! ## Runs -/

theorem transparent_run (settings : Settings) (files : FileSystem) {operations : List Operation}
    (h : ∀ operation ∈ operations, operation.handsOver = false) :
    Transparent settings files ((start settings).run (operations.map (files, ·))) := by
  apply run_induction (Transparent.start settings files)
  intro step hstep before hbefore
  obtain ⟨operation, hoperation, rfl⟩ := List.mem_map.1 hstep
  exact hbefore.perform (h operation hoperation)

/-- After any run over unchanged files in which no definition is handed over, every import is
answered as in a fresh session, by a definition with the same content or by the same error, and
every document has the same diagnostics. -/
theorem answers_after_run_eq_fresh (settings : Settings) (files : FileSystem)
    (operations : List Operation) (h : ∀ operation ∈ operations, operation.handsOver = false) :
    (∀ declaration,
      (((start settings).run (operations.map (files, ·))).resolve files declaration).value.map
          Definition.document =
        ((start settings).resolve files declaration).value.map Definition.document) ∧
    ∀ document,
      (((start settings).run (operations.map (files, ·))).check files document).value =
        ((start settings).check files document).value := by
  have hfresh := Transparent.start settings files
  have hrun := transparent_run settings files h
  constructor
  · intro declaration
    rw [hrun.resolve_value, hfresh.resolve_value]
  · intro document
    exact hrun.check_value hfresh document

/-- A run that fills the cache, drops what it holds, starts again and fails in between. -/
def sampleRun : List Operation :=
  [.resolve baseImport, .ignoreAlias "base", .refresh [missingImport], .reset, .ensureBundle,
    .check (.execution { imports := [missingImport, baseImport] }), .resolve missingImport]

theorem answers_after_sampleRun :
    (∀ operation ∈ sampleRun, operation.handsOver = false) ∧
    ((start sampleSettings).resolve sampleFiles baseImport).value.isOk = true ∧
    (((start sampleSettings).run (sampleRun.map (sampleFiles, ·))).resolve sampleFiles
        baseImport).value.map Definition.document =
      ((start sampleSettings).resolve sampleFiles baseImport).value.map Definition.document := by
  have hrun : ∀ operation ∈ sampleRun, operation.handsOver = false := by decide
  have hfresh : ((start sampleSettings).resolve sampleFiles baseImport).value.isOk = true := by
    decide +kernel
  exact ⟨hrun, hfresh, (answers_after_run_eq_fresh sampleSettings sampleFiles sampleRun hrun).1
    baseImport⟩

end CrossModel.Session
