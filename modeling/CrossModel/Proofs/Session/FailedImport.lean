import CrossModel.Proofs.Session.LoadHistory

/-!
# Failed imports

An import that fails leaves the cache, the alias table and the ignored aliases as they are. Whether
it leaves the alias targets depends on how far it came: an alias stands for a file as soon as the
path of an import led there, before the file is read. So a file that cannot be read or parsed, or
that holds a document of another kind, takes over its alias as a good one does, while an import that
leads to no file changes no target.
-/

namespace CrossModel.Session

variable {session : Session} {files : FileSystem} {declaration : ImportDeclaration}

theorem loadEvent?_of_readsFile (hknown : session.known? declaration = none)
    (h : session.readsFile files declaration.kind declaration.key = true) :
    ∃ file, session.settings.locate files declaration.path = some file ∧
      session.loadEvent? files declaration = some (session.loadEvent declaration file) := by
  obtain ⟨hbundled, hlocated⟩ := Bool.and_eq_true_iff.1 h
  obtain ⟨file, hfile⟩ := Option.isSome_iff_exists.1 hlocated
  have hpath : session.settings.locate files declaration.path = some file := hfile
  refine ⟨file, hpath, ?_⟩
  unfold loadEvent?
  rw [hknown, if_pos ⟨rfl, hbundled⟩, hpath]
  rfl

theorem loadEvent?_of_not_readsFile
    (h : session.readsFile files declaration.kind declaration.key = false) :
    session.loadEvent? files declaration = none := by
  unfold loadEvent?
  split
  · next hunknown =>
    cases hlocated : session.settings.locate files declaration.path with
    | none => rfl
    | some file =>
      have hreads : session.readsFile files declaration.kind declaration.key = true := by
        unfold readsFile
        rw [Bool.and_eq_true]
        refine ⟨hunknown.2, ?_⟩
        rw [show declaration.key.path = declaration.path from rfl, hlocated]
        rfl
      rw [h] at hreads
      cases hreads
  · rfl

/-- A failure shows afterwards whether the import led to a file. -/
theorem failedReading_load {reason : ImportFailure}
    (h : session.loadedDocument files declaration.kind declaration.key = .error reason) :
    (session.load files declaration).session.failedReading
        (declaration, .error (.unresolvedImport declaration.key reason)) =
      session.readsFile files declaration.kind declaration.key := by
  have hgrown := grown_load session files declaration
  rw [← readsFile_eq_failedReading (isSome_bundle_load session files declaration)
    (by rw [hgrown.loadedDocument]; exact h)]
  unfold readsFile
  rw [hgrown.bundled, hgrown.settings]

/-- An import that fails changes neither the cache nor the alias table nor the ignored aliases. It
changes no alias target either, unless its path led to a file and its alias is not ignored: then the
file is what the alias stands for, and what no other alias stands for. -/
theorem resolve_of_error {error : ResolveError}
    (h : (session.resolve files declaration).value = .error error) :
    let after := (session.resolve files declaration).session
    after.settings = session.settings ∧
    after.cache = session.cache ∧
    after.aliases = session.aliases ∧
    after.ignoredAliases = session.ignoredAliases ∧
    (after.failedReading (declaration, .error error) = false ∨
        declaration.key.aliasName.any session.isAliasIgnored = true →
      after.indirections = session.indirections) ∧
    (after.failedReading (declaration, .error error) = true →
        declaration.key.aliasName.any session.isAliasIgnored = false →
      ∃ file, session.settings.locate files declaration.path = some file ∧
        ∀ kind name, after.aliasTarget? kind name =
          if declaration.kind = kind ∧ declaration.key.aliasName = some name then some file
          else (session.aliasTarget? kind name).filter fun target => !target.same file) := by
  intro after
  have hgrown := grown_load session files declaration
  rcases resolve_cases session files declaration with
    ⟨definition, -, hresolve⟩ | ⟨definition, -, -, -, hresolve⟩ |
    ⟨reason, hknown, hloaded, hresolve⟩
  · rw [hresolve] at h
    cases h
  · rw [hresolve] at h
    cases h
  · rw [hresolve] at h
    cases h
    have hafter : after = (session.load files declaration).session :=
      congrArg Step.session hresolve
    have hrecords := (records_load files hknown).indirections
    rw [hafter, failedReading_load hloaded]
    refine ⟨hgrown.settings, cache_load session files declaration, hgrown.aliases,
      hgrown.ignoredAliases, ?_, ?_⟩
    · cases hreads : session.readsFile files declaration.kind declaration.key with
      | false =>
        intro _
        rw [hrecords, loadEvent?_of_not_readsFile hreads]
        rfl
      | true =>
        rintro (hcontra | hignored)
        · cases hcontra
        · obtain ⟨file, -, hevent⟩ := loadEvent?_of_readsFile hknown hreads
          rw [hrecords, hevent]
          exact Indirections.after_of_ignored session.indirections hignored
    · intro hreads hignored
      obtain ⟨file, hfile, hevent⟩ := loadEvent?_of_readsFile hknown hreads
      refine ⟨file, hfile, ?_⟩
      intro kind name
      unfold aliasTarget?
      rw [hrecords, hevent]
      exact Indirections.target?_after session.indirections hignored kind name

/-- The workspace with a platform that breaks off after its first word. -/
def brokenFiles : FileSystem :=
  sampleFiles.writeFile ⟨"/work/Broken.platform"⟩ "platform".toUTF8

def brokenImport : ImportDeclaration :=
  { kind := .platform, path := "Broken.platform", aliasName := some "base" }

/-- A session in which the alias `base` stands for a good platform. -/
def sampleSession : Session :=
  ((start sampleSettings).resolve brokenFiles baseImport).session

/-- What the sample does, evaluated once: the import fails after its file was found, and its alias,
which is not ignored, stands for another file than before. -/
theorem brokenImport_evaluated :
    (sampleSession.resolve brokenFiles brokenImport).value.isOk = false ∧
      (sampleSession.resolve brokenFiles brokenImport).session.failedReading
        (brokenImport, (sampleSession.resolve brokenFiles brokenImport).value) = true ∧
      brokenImport.key.aliasName.any sampleSession.isAliasIgnored = false ∧
      sampleSession.aliasTarget? .platform "base" = some ⟨"/work/Base.platform"⟩ ∧
      (sampleSession.resolve brokenFiles brokenImport).session.aliasTarget? .platform "base" =
        some ⟨"/work/Broken.platform"⟩ := by
  decide +kernel

theorem resolve_brokenImport :
    ∃ error, (sampleSession.resolve brokenFiles brokenImport).value = .error error ∧
      (sampleSession.resolve brokenFiles brokenImport).session.cache = sampleSession.cache ∧
      ∃ file, sampleSession.settings.locate brokenFiles brokenImport.path = some file ∧
        (sampleSession.resolve brokenFiles brokenImport).session.aliasTarget? .platform "base" =
          some file := by
  obtain ⟨hfails, hreads, hheeded, -, -⟩ := brokenImport_evaluated
  cases hvalue : (sampleSession.resolve brokenFiles brokenImport).value with
  | ok definition =>
    rw [hvalue] at hfails
    cases hfails
  | error error =>
    rw [hvalue] at hreads
    obtain ⟨-, hcache, -, -, -, htargets⟩ := resolve_of_error hvalue
    obtain ⟨file, hfile, htarget⟩ := htargets hreads hheeded
    exact ⟨error, rfl, hcache, file, hfile, htarget .platform "base"⟩

/-- An import that fails can change what its alias stands for. -/
theorem aliasTarget?_resolve_brokenImport :
    (sampleSession.resolve brokenFiles brokenImport).value.isOk = false ∧
      (sampleSession.resolve brokenFiles brokenImport).session.aliasTarget? .platform "base" ≠
        sampleSession.aliasTarget? .platform "base" := by
  obtain ⟨hfails, -, -, hbefore, hafter⟩ := brokenImport_evaluated
  refine ⟨hfails, ?_⟩
  rw [hbefore, hafter]
  decide

end CrossModel.Session
