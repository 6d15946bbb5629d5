import CrossModel.Proofs.Files.AliasLocations
import CrossModel.Proofs.Session.Refresh
import CrossModel.Proofs.Session.Run
import CrossModel.Proofs.Since

/-!
# Alias targets and the history of loads

A session goes to a file only for an import that neither the alias table nor the cache nor the
bundle answers. This module collects these load events along a run, since the last reset, and shows
that they determine the alias targets and the number of loads. One resolved import adds at most one
event (`records_resolve`), and a refresh adds those of its imports one after the other. Whether an
event is ignored follows from the run as well (`isAliasIgnored_run_iff`).
-/

namespace CrossModel.Session

/-! ## The events of operations -/

/-- The event of an import that leads to this file. -/
def loadEvent (session : Session) (declaration : ImportDeclaration) (file : Path) : LoadEvent where
  kind := declaration.kind
  aliasName := declaration.key.aliasName
  file
  ignored := declaration.key.aliasName.any session.isAliasIgnored

/-- The event of resolving an import, if the import is not known, no bundled definition matches it
and its path leads to a file. -/
def loadEvent? (session : Session) (files : FileSystem) (declaration : ImportDeclaration) :
    Option LoadEvent :=
  if (session.known? declaration).isNone ∧
      (session.bundledDocument? files (declaration.kind.bundleLocation declaration.path)).isNone then
    (session.settings.locate files declaration.path).map (session.loadEvent declaration)
  else none

/-- The events of resolving imports one after the other. -/
def resolveEvents (session : Session) (files : FileSystem) :
    List ImportDeclaration → List LoadEvent
  | [] => []
  | declaration :: rest =>
    (session.loadEvent? files declaration).toList ++
      (session.resolve files declaration).session.resolveEvents files rest

/-- The events of an operation. A refresh evicts before it resolves. -/
def loadEvents (session : Session) (files : FileSystem) (operation : Operation) :
    List LoadEvent :=
  match operation.refreshed? with
  | some imports => (session.evicted imports).resolveEvents files imports
  | none =>
    match operation with
    | .resolve declaration => (session.loadEvent? files declaration).toList
    | _ => []

/-- The events of a run since its last reset, behind those of the past. -/
def loadHistory (session : Session) (past : List LoadEvent) :
    List (FileSystem × Operation) → List LoadEvent
  | [] => past
  | (_, .reset) :: rest => session.reset.loadHistory [] rest
  | (files, operation) :: rest =>
    (session.perform files operation).loadHistory (past ++ session.loadEvents files operation) rest

/-! ## What events do to a session -/

/-- These events happened between two sessions. -/
structure Records (earlier later : Session) (events : List LoadEvent) : Prop where
  indirections : later.indirections = events.foldl Indirections.after earlier.indirections
  loadCount : later.loadCount = earlier.loadCount + events.length
  canonical : ∀ event ∈ events, event.file.IsCanonical
  /-- An event for an alias that is ignored from the start is ignored. -/
  ignored : ∀ event ∈ events, ∀ name, event.aliasName = some name →
    earlier.isAliasIgnored name = true → event.ignored = true

namespace Records

variable {earlier between later : Session} {events more : List LoadEvent}

theorem nil (hindirections : later.indirections = earlier.indirections)
    (hcount : later.loadCount = earlier.loadCount) : Records earlier later [] where
  indirections := hindirections
  loadCount := hcount
  canonical event hevent := by cases hevent
  ignored event hevent := by cases hevent

theorem append (hfirst : Records earlier between events) (hsecond : Records between later more)
    (hignored : between.ignoredAliases = earlier.ignoredAliases) :
    Records earlier later (events ++ more) where
  indirections := by
    rw [hsecond.indirections, hfirst.indirections, List.foldl_append]
  loadCount := by
    rw [hsecond.loadCount, hfirst.loadCount, List.length_append, Nat.add_assoc]
  canonical event hevent := by
    rcases List.mem_append.1 hevent with hevent | hevent
    · exact hfirst.canonical event hevent
    · exact hsecond.canonical event hevent
  ignored event hevent name halias hname := by
    rcases List.mem_append.1 hevent with hevent | hevent
    · exact hfirst.ignored event hevent name halias hname
    · refine hsecond.ignored event hevent name halias ?_
      unfold isAliasIgnored
      rw [hignored]
      exact hname

end Records

theorem isAliasIgnored_ensureBundle (session : Session) (files : FileSystem) :
    (session.ensureBundle files).session.isAliasIgnored = session.isAliasIgnored := by
  obtain ⟨bundle, nextId, heq⟩ := ensureBundle_session session files
  rw [heq]
  rfl

theorem indirections_ensureBundle (session : Session) (files : FileSystem) :
    (session.ensureBundle files).session.indirections = session.indirections := by
  obtain ⟨bundle, nextId, heq⟩ := ensureBundle_session session files
  rw [heq]

theorem indirections_placeImport (session : Session) (declaration : ImportDeclaration)
    (file : Path) :
    (session.placeImport declaration file).session.indirections =
      session.indirections.after (session.loadEvent declaration file) := by
  unfold placeImport loadEvent Indirections.after
  cases declaration.key.aliasName with
  | none => rfl
  | some name =>
    simp only [Option.any_some]
    split <;> rfl

theorem records_load {session : Session} (files : FileSystem) {declaration : ImportDeclaration}
    (hknown : session.known? declaration = none) :
    Records session (session.load files declaration).session
      (session.loadEvent? files declaration).toList := by
  unfold loadEvent? bundledDocument?
  rw [hknown]
  have hindirections := indirections_ensureBundle session files
  have hcount := loadCount_ensureBundle session files
  cases hbundled : (session.ensureBundle files).session.bundled?
      (declaration.kind.bundleLocation declaration.path) with
  | some definition =>
    rw [load_of_bundled hbundled]
    exact .nil hindirections hcount
  | none =>
    cases hlocated : session.settings.locate files declaration.path with
    | none =>
      rw [load_of_not_located hbundled hlocated]
      exact .nil hindirections hcount
    | some file =>
      obtain ⟨indirections, nextId, hload⟩ := load_session session files declaration
      have hreads : session.readsFile files declaration.kind declaration.key = true := by
        unfold readsFile bundledDocument?
        rw [show declaration.key.path = declaration.path from rfl, hbundled, hlocated]
        rfl
      have hevent : (session.ensureBundle files).session.loadEvent declaration file =
          session.loadEvent declaration file := by
        unfold loadEvent
        rw [isAliasIgnored_ensureBundle]
      simp only [Option.isNone_none, Option.map_none, and_self, if_true, Option.map_some,
        Option.toList_some]
      refine ⟨?_, ?_, ?_, ?_⟩
      · rw [load_of_located hbundled hlocated]
        simp only [loadFile, indirections_placeImport, hindirections, hevent, List.foldl_cons,
          List.foldl_nil]
      · rw [hload, hreads]
        rfl
      · intro event hmem
        rw [List.mem_singleton.1 hmem]
        exact Settings.isCanonical_of_locate hlocated
      · intro event hmem name halias hname
        rw [List.mem_singleton.1 hmem] at halias ⊢
        have hkey : declaration.key.aliasName = some name := halias
        simp [loadEvent, hkey, hname]

theorem records_resolve (session : Session) (files : FileSystem)
    (declaration : ImportDeclaration) :
    Records session (session.resolve files declaration).session
      (session.loadEvent? files declaration).toList := by
  rcases resolve_cases session files declaration with
    ⟨definition, hknown, hresolve⟩ | ⟨definition, hknown, -, -, hresolve⟩ |
    ⟨reason, hknown, -, hresolve⟩
  · have hevent : session.loadEvent? files declaration = none := by
      unfold loadEvent?
      simp [hknown]
    rw [hresolve, hevent]
    exact .nil rfl rfl
  · rw [hresolve]
    obtain ⟨hindirections, hcount, hcanonical, hignored⟩ := records_load files hknown
    exact ⟨hindirections, hcount, hcanonical, hignored⟩
  · rw [hresolve]
    exact records_load files hknown

theorem records_resolveAll (session : Session) (files : FileSystem)
    (imports : List ImportDeclaration) :
    Records session (session.resolveAll files imports).session
      (session.resolveEvents files imports) := by
  induction imports generalizing session with
  | nil => exact .nil rfl rfl
  | cons declaration rest ih =>
    exact (records_resolve session files declaration).append (ih _)
      (grown_resolve session files declaration).ignoredAliases

theorem records_refreshResults (session : Session) (files : FileSystem)
    (imports : List ImportDeclaration) :
    Records session (session.refreshResults files imports).session
      ((session.evicted imports).resolveEvents files imports) := by
  obtain ⟨hindirections, hcount, hcanonical, hignored⟩ :=
    records_resolveAll (session.evicted imports) files imports
  exact ⟨hindirections, hcount, hcanonical, hignored⟩

theorem indirections_ignoreAlias (session : Session) (name : String) :
    (session.ignoreAlias name).indirections = session.indirections := by
  obtain ⟨ignored, heq⟩ := ignoreAlias_eq session name
  rw [heq]

theorem loadCount_ignoreAlias (session : Session) (name : String) :
    (session.ignoreAlias name).loadCount = session.loadCount := by
  obtain ⟨ignored, heq⟩ := ignoreAlias_eq session name
  rw [heq]

theorem records_perform (session : Session) (files : FileSystem) {operation : Operation}
    (h : operation ≠ .reset) :
    Records session (session.perform files operation) (session.loadEvents files operation) := by
  cases hrefreshed : operation.refreshed? with
  | some imports =>
    unfold loadEvents
    rw [perform_of_refreshed? hrefreshed, hrefreshed]
    exact records_refreshResults session files imports
  | none =>
    cases operation with
    | resolve declaration => exact records_resolve session files declaration
    | ensureBundle =>
      exact .nil (indirections_ensureBundle session files) (loadCount_ensureBundle session files)
    | ignoreAlias name =>
      exact .nil (indirections_ignoreAlias session name) (loadCount_ignoreAlias session name)
    | adopt document => exact .nil rfl rfl
    | registerAlias name definition => exact .nil rfl rfl
    | registerImport path aliasName definition => exact .nil rfl rfl
    | updateImport definition => exact .nil rfl rfl
    | reset => exact absurd rfl h
    | _ => cases hrefreshed

/-! ## Ignored aliases -/

theorem isAliasIgnored_ignoreAlias (session : Session) (name other : String) :
    (session.ignoreAlias name).isAliasIgnored other =
      (name = other || session.isAliasIgnored other) := by
  unfold ignoreAlias
  split
  · next hname =>
    by_cases hother : name = other
    · simp [← hother, hname]
    · simp [hother]
  · simp [isAliasIgnored, eq_comm (a := other), or_comm]

theorem isAliasIgnored_resolve (session : Session) (files : FileSystem)
    (declaration : ImportDeclaration) :
    (session.resolve files declaration).session.isAliasIgnored = session.isAliasIgnored := by
  unfold isAliasIgnored
  rw [(grown_resolve session files declaration).ignoredAliases]

theorem isAliasIgnored_refreshResults (session : Session) (files : FileSystem)
    (imports : List ImportDeclaration) :
    (session.refreshResults files imports).session.isAliasIgnored = session.isAliasIgnored := by
  have hgrown := grown_resolveAll (session.evicted imports) files imports
  unfold isAliasIgnored
  rw [refreshResults_session, hgrown.ignoredAliases]
  rfl

/-- Only ignoring an alias makes it ignored, and only a reset ends that. -/
theorem isAliasIgnored_perform (session : Session) (files : FileSystem) (operation : Operation)
    (name : String) :
    (session.perform files operation).isAliasIgnored name = true ↔
      operation = .ignoreAlias name ∨
        session.isAliasIgnored name = true ∧ operation ≠ .reset := by
  cases hrefreshed : operation.refreshed? with
  | some imports =>
    have hother : operation ≠ .ignoreAlias name := by
      rintro rfl
      cases hrefreshed
    have hreset : operation ≠ .reset := by
      rintro rfl
      cases hrefreshed
    rw [perform_of_refreshed? hrefreshed, isAliasIgnored_refreshResults]
    simp [hother, hreset]
  | none =>
    cases operation with
    | resolve declaration => simp [perform, isAliasIgnored_resolve]
    | ensureBundle => simp [perform, isAliasIgnored_ensureBundle]
    | ignoreAlias other => simp [perform, isAliasIgnored_ignoreAlias]
    | adopt document => simp [perform, adopt, isAliasIgnored]
    | registerAlias other definition => simp [perform, registerAlias, isAliasIgnored]
    | registerImport path aliasName definition => simp [perform, registerImport, isAliasIgnored]
    | updateImport definition => simp [perform, updateImport, isAliasIgnored]
    | reset => simp [perform, reset, start, isAliasIgnored]
    | _ => cases hrefreshed

/-- An alias is ignored after a run if and only if the run made it so and did not reset the session
since. -/
theorem isAliasIgnored_run_iff (settings : Settings) (history : List (FileSystem × Operation))
    (name : String) :
    ((start settings).run history).isAliasIgnored name = true ↔
      Since (fun _ step => step.2 = .ignoreAlias name) (·.2 ≠ .reset) history :=
  foldl_iff_since (fun session => session.isAliasIgnored name = true)
    (fun session step => isAliasIgnored_perform session step.1 step.2 name)
    Bool.false_ne_true history

/-! ## Runs -/

theorem recorded_run (session : Session) {past : List LoadEvent}
    (history : List (FileSystem × Operation)) (hcount : session.loadCount = past.length)
    (hrecorded : Recorded past session.indirections) :
    (session.run history).loadCount = (session.loadHistory past history).length ∧
      Recorded (session.loadHistory past history) (session.run history).indirections := by
  induction history generalizing session past with
  | nil => exact ⟨hcount, hrecorded⟩
  | cons step rest ih =>
    obtain ⟨files, operation⟩ := step
    by_cases hreset : operation = .reset
    · -- A reset forgets the events together with what they did.
      subst hreset
      exact ih session.reset rfl Recorded.nil
    · have hstep := records_perform session files hreset
      rw [loadHistory]
      · apply ih
        · rw [hstep.loadCount, hcount, List.length_append]
        · rw [hstep.indirections]
          exact hrecorded.append hstep.canonical
      · exact hreset

theorem aliasTarget?_of_perform {session : Session} {files : FileSystem} {operation : Operation}
    {kind : DefinitionKind} {name : String} {file : Path}
    (hname : session.isAliasIgnored name = true)
    (h : (session.perform files operation).aliasTarget? kind name = some file) :
    session.aliasTarget? kind name = some file := by
  by_cases hreset : operation = .reset
  · subst hreset
    cases h
  · have hstep := records_perform session files hreset
    unfold aliasTarget? at h ⊢
    rw [hstep.indirections] at h
    exact Indirections.target?_of_foldl_after
      (fun event hevent halias => hstep.ignored event hevent name halias hname) h

/-- After any run, over files that may change, the load events since the last reset determine how
often a file was loaded and which file each alias stands for: an alias stands for a file if and only
if, of the events that are for the alias or lead to the file and are not ignored, the last one does
both. No file is what two aliases stand for, and no operation makes an ignored alias stand for a
file. -/
theorem aliasTarget?_run_iff_last_loadEvent (settings : Settings)
    (history : List (FileSystem × Operation)) :
    let session := (start settings).run history
    let events := (start settings).loadHistory [] history
    session.loadCount = events.length ∧
    (∀ kind name file, session.aliasTarget? kind name = some file ↔
      (events.filter (·.concerns kind name file)).getLast? =
        some ⟨kind, some name, file, false⟩) ∧
    (∀ kind name other otherName file, session.aliasTarget? kind name = some file →
      session.aliasTarget? other otherName = some file → kind = other ∧ name = otherName) ∧
    ∀ files operation kind name file, session.isAliasIgnored name = true →
      (session.perform files operation).aliasTarget? kind name = some file →
      session.aliasTarget? kind name = some file := by
  intro session events
  obtain ⟨hcount, hrecorded⟩ := recorded_run (start settings) history rfl Recorded.nil
  refine ⟨hcount, hrecorded.target_iff, ?_, ?_⟩
  · intro kind name other otherName file hfirst hsecond
    exact hrecorded.alias_unique hfirst hsecond
  · intro files operation kind name file hname htarget
    exact aliasTarget?_of_perform hname htarget

-- The second import is known, and the third has another key for the same file.
example :
    (start sampleSettings).loadHistory []
        ([.reset, .resolve baseImport, .refresh [baseImport, { baseImport with aliasName := none }],
          .resolve missingImport].map (sampleFiles, ·)) =
      [⟨.platform, some "base", ⟨"/work/Base.platform"⟩, false⟩,
        ⟨.platform, none, ⟨"/work/Base.platform"⟩, false⟩] := by
  decide +kernel

end CrossModel.Session
