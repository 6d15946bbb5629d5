import CrossModel.Proofs.Catalog
import CrossModel.Session.Resolve

/-!
# What resolving an import can do

The answer to an import that is not known yet is a function of the settings, the files, the bundled
documents and the kind, path and alias of the import: `Session.loadedDocument` gives it as a
document, instances aside. The three ways in which `Session.resolve` can end are listed once, in
`resolve_cases`, and `Grown` collects what any number of such steps leaves in place. All later
facts about sessions are derived from these two.
-/

namespace CrossModel

/-- The document, if it holds a definition of this kind. -/
def Document.ofKind (kind : DefinitionKind) (document : Document) :
    Except ImportFailure Document :=
  if document.kind = .definition kind then .ok document
  else .error (.kindMismatch kind document.kind)

/-- Where a definition from a file is located: at its alias, or at the file if it has none. -/
def ImportKey.location (key : ImportKey) (kind : DefinitionKind) (file : Path) : String :=
  match key.aliasName with
  | none => file.text
  | some name => kind.aliasLocation name

/-- The document in a file, for an import that leads to this file. -/
def FileSystem.importedDocument (files : FileSystem) (kind : DefinitionKind) (key : ImportKey)
    (file : Path) : Except ImportFailure Document :=
  match files.loadDocument file (key.location kind file) with
  | .error error => .error error.importFailure
  | .ok document => document.ofKind kind

theorem Definition.ofDocument?_eq_some {id : Nat} {document : Document} {definition : Definition}
    (h : ofDocument? id document = some definition) :
    definition.document = document ∧ document.kind = .definition definition.kind := by
  cases document with
  | platform content =>
    cases h
    exact ⟨rfl, rfl⟩
  | library content =>
    cases h
    exact ⟨rfl, rfl⟩
  | execution content => cases h

theorem Definition.ofDocument?_eq_none {id : Nat} {document : Document}
    (h : ofDocument? id document = none) : document.kind = .execution := by
  cases document with
  | platform content => cases h
  | library content => cases h
  | execution content => rfl

namespace Session

/-! ## The bundle -/

/-- Reading the bundle changes nothing else, but for the number of the next definition. -/
theorem ensureBundle_session (session : Session) (files : FileSystem) :
    ∃ bundle nextId, (session.ensureBundle files).session =
      { session with bundle := some bundle, nextId := nextId } := by
  unfold ensureBundle
  split
  · next bundle hbundle => exact ⟨bundle, session.nextId, by rw [← hbundle]⟩
  · next hbundle hroot => exact ⟨.empty, session.nextId, rfl⟩
  · next root hbundle hroot => exact ⟨_, _, rfl⟩

theorem ensureBundle_of_bundle {session : Session} {bundle : Bundle} (files : FileSystem)
    (h : session.bundle = some bundle) :
    session.ensureBundle files = { value := false, session := session } := by
  unfold ensureBundle
  split
  · rfl
  · next hbundle _ => rw [h] at hbundle; cases hbundle
  · next hbundle _ => rw [h] at hbundle; cases hbundle

theorem bundle_ensureBundle_of_none {session : Session} (files : FileSystem)
    (h : session.bundle = none) :
    (session.ensureBundle files).session.bundle = some (match session.settings.bundleRoot with
      | none => .empty
      | some root =>
        (Bundle.empty.register session.nextId (BundleScan.ofRoot files root).entries).1) := by
  unfold ensureBundle
  rw [h]
  cases session.settings.bundleRoot <;> rfl

/-- The bundled document at a location, once the bundle has been read. -/
def bundledDocument? (session : Session) (files : FileSystem) (location : String) :
    Option Document :=
  ((session.ensureBundle files).session.bundled? location).map Definition.document

theorem bundledDocument?_congr {earlier later : Session} {files : FileSystem}
    (h : later.bundle = (earlier.ensureBundle files).session.bundle) :
    later.bundledDocument? files = earlier.bundledDocument? files := by
  obtain ⟨bundle, nextId, heq⟩ := ensureBundle_session earlier files
  have hbundle : later.bundle = some bundle := by rw [h, heq]
  funext location
  unfold bundledDocument? bundled?
  rw [ensureBundle_of_bundle files hbundle, h]

/-- The documents of a bundle do not depend on the numbers that its definitions get. -/
theorem find?_register_congr (location : String) {first second : Bundle} (id other : Nat)
    (entries : List BundleEntry)
    (h : ∀ location, (first.find? location).map Definition.document =
      (second.find? location).map Definition.document) :
    ((first.register id entries).1.find? location).map Definition.document =
      ((second.register other entries).1.find? location).map Definition.document := by
  induction entries generalizing first second id other with
  | nil => exact h location
  | cons entry rest ih =>
    have hinsert : ∀ a b : Definition, a.document = b.document → ∀ place,
        ((Bundle.mk (first.definitions.insert entry.location a)).find? place).map
            Definition.document =
          ((Bundle.mk (second.definitions.insert entry.location b)).find? place).map
            Definition.document := by
      intro a b hab place
      simp only [Bundle.find?, OrderedMap.get?_insert]
      split
      · simp [hab]
      · exact h place
    cases hdocument : entry.document with
    | platform content =>
      simp only [Bundle.register, hdocument, Definition.ofDocument?]
      exact ih _ _ (hinsert _ _ rfl)
    | library content =>
      simp only [Bundle.register, hdocument, Definition.ofDocument?]
      exact ih _ _ (hinsert _ _ rfl)
    | execution content =>
      simp only [Bundle.register, hdocument, Definition.ofDocument?]
      exact ih _ _ h

theorem bundledDocument?_of_same_bundle {earlier later : Session} (files : FileSystem)
    (hsettings : later.settings = earlier.settings) (hbundle : later.bundle = earlier.bundle) :
    later.bundledDocument? files = earlier.bundledDocument? files := by
  funext location
  cases hsome : earlier.bundle with
  | some bundle =>
    rw [bundledDocument?_congr]
    rw [ensureBundle_of_bundle files hsome, hbundle]
  | none =>
    rw [hsome] at hbundle
    unfold bundledDocument? bundled?
    rw [bundle_ensureBundle_of_none files hbundle, bundle_ensureBundle_of_none files hsome,
      hsettings, Option.bind_some, Option.bind_some]
    cases earlier.settings.bundleRoot with
    | none => rfl
    | some root =>
      exact find?_register_congr location _ _ _ fun _ => rfl

/-! ## Loading -/

/-- The document that loading an import leads to. -/
def loadedDocument (session : Session) (files : FileSystem) (kind : DefinitionKind)
    (key : ImportKey) : Except ImportFailure Document :=
  match session.bundledDocument? files (kind.bundleLocation key.path) with
  | some document => document.ofKind kind
  | none =>
    match session.settings.locate files key.path with
    | none => .error .notFound
    | some file => files.importedDocument kind key file

theorem loadedDocument_congr {earlier later : Session} {files : FileSystem}
    (hsettings : later.settings = earlier.settings)
    (hbundled : later.bundledDocument? files = earlier.bundledDocument? files) :
    later.loadedDocument files = earlier.loadedDocument files := by
  funext kind key
  unfold loadedDocument
  rw [hsettings, hbundled]

theorem placeImport_value (session : Session) (declaration : ImportDeclaration) (file : Path) :
    (session.placeImport declaration file).value =
      declaration.key.location declaration.kind file := by
  unfold placeImport ImportKey.location
  cases declaration.key.aliasName with
  | none => rfl
  | some name =>
    simp only
    split <;> rfl

theorem placeImport_session (session : Session) (declaration : ImportDeclaration) (file : Path) :
    ∃ indirections, (session.placeImport declaration file).session =
      { session with indirections := indirections } := by
  unfold placeImport
  cases declaration.key.aliasName with
  | none => exact ⟨_, rfl⟩
  | some name =>
    simp only
    split
    · exact ⟨session.indirections, rfl⟩
    · exact ⟨_, rfl⟩

/-- The definition that is read from a file holds the document of the import, and is of its
kind. -/
theorem readDefinition_eq (session : Session) (files : FileSystem) (kind : DefinitionKind)
    (key : ImportKey) (file : Path) :
    (∃ definition, session.readDefinition files kind file (key.location kind file) =
        .ok definition ∧ definition.kind = kind ∧
        files.importedDocument kind key file = .ok definition.document) ∨
      ∃ reason, session.readDefinition files kind file (key.location kind file) =
        .error reason ∧ files.importedDocument kind key file = .error reason := by
  unfold readDefinition FileSystem.importedDocument
  cases files.loadDocument file (key.location kind file) with
  | error error => exact .inr ⟨error.importFailure, rfl, rfl⟩
  | ok document =>
    cases hdefinition : Definition.ofDocument? session.nextId document with
    | none =>
      have hkind := Definition.ofDocument?_eq_none hdefinition
      right
      refine ⟨.kindMismatch kind document.kind, by simp [hdefinition], ?_⟩
      simp [Document.ofKind, hkind]
    | some definition =>
      obtain ⟨hdocument, hkind⟩ := Definition.ofDocument?_eq_some hdefinition
      by_cases hmatch : definition.kind = kind
      · left
        refine ⟨definition, by simp [hdefinition, hmatch], hmatch, ?_⟩
        simp [Document.ofKind, hkind, hmatch, hdocument]
      · right
        refine ⟨.kindMismatch kind document.kind, by simp [hdefinition, hmatch], ?_⟩
        simp [Document.ofKind, hkind, hmatch]

/-- Whether loading an import goes to a file: no bundled definition matches, and the path leads to
a file. -/
def readsFile (session : Session) (files : FileSystem) (kind : DefinitionKind) (key : ImportKey) :
    Bool :=
  (session.bundledDocument? files (kind.bundleLocation key.path)).isNone &&
    (session.settings.locate files key.path).isSome

theorem settings_ensureBundle (session : Session) (files : FileSystem) :
    (session.ensureBundle files).session.settings = session.settings := by
  obtain ⟨bundle, nextId, heq⟩ := ensureBundle_session session files
  rw [heq]

theorem loadCount_ensureBundle (session : Session) (files : FileSystem) :
    (session.ensureBundle files).session.loadCount = session.loadCount := by
  obtain ⟨bundle, nextId, heq⟩ := ensureBundle_session session files
  rw [heq]

section Load

variable {session : Session} {files : FileSystem} {declaration : ImportDeclaration}

theorem load_of_bundled {definition : Definition}
    (h : (session.ensureBundle files).session.bundled?
      (declaration.kind.bundleLocation declaration.key.path) = some definition) :
    session.load files declaration =
      { value :=
          if definition.kind = declaration.kind then .ok definition
          else .error (.kindMismatch declaration.kind (.definition definition.kind))
        session := (session.ensureBundle files).session
        log := (session.ensureBundle files).log } := by
  rw [show declaration.key.path = declaration.path from rfl] at h
  simp only [load, h]

theorem load_of_not_located
    (h : (session.ensureBundle files).session.bundled?
      (declaration.kind.bundleLocation declaration.key.path) = none)
    (hlocated : session.settings.locate files declaration.key.path = none) :
    session.load files declaration =
      { value := .error .notFound
        session := (session.ensureBundle files).session
        log := (session.ensureBundle files).log } := by
  rw [show declaration.key.path = declaration.path from rfl] at h hlocated
  simp only [load, h, settings_ensureBundle, hlocated]

theorem load_of_located {file : Path}
    (h : (session.ensureBundle files).session.bundled?
      (declaration.kind.bundleLocation declaration.key.path) = none)
    (hlocated : session.settings.locate files declaration.key.path = some file) :
    session.load files declaration =
      { (session.ensureBundle files).session.loadFile files declaration file with
        log := (session.ensureBundle files).log ++
          ((session.ensureBundle files).session.loadFile files declaration file).log } := by
  rw [show declaration.key.path = declaration.path from rfl] at h hlocated
  simp only [load, h, settings_ensureBundle, hlocated]

/-- Loading reads the bundle and, besides, touches only the indirections, the number of loads and
the number of the next definition. -/
theorem load_session (session : Session) (files : FileSystem) (declaration : ImportDeclaration) :
    ∃ indirections nextId, (session.load files declaration).session =
      { (session.ensureBundle files).session with
        indirections := indirections
        loadCount := session.loadCount +
          if session.readsFile files declaration.kind declaration.key then 1 else 0
        nextId := nextId } := by
  unfold readsFile bundledDocument?
  cases hbundled : (session.ensureBundle files).session.bundled?
      (declaration.kind.bundleLocation declaration.key.path) with
  | some definition =>
    refine ⟨(session.ensureBundle files).session.indirections,
      (session.ensureBundle files).session.nextId, ?_⟩
    rw [load_of_bundled hbundled]
    simp [← loadCount_ensureBundle session files]
  | none =>
    cases hlocated : session.settings.locate files declaration.key.path with
    | none =>
      refine ⟨(session.ensureBundle files).session.indirections,
        (session.ensureBundle files).session.nextId, ?_⟩
      rw [load_of_not_located hbundled hlocated]
      simp [← loadCount_ensureBundle session files]
    | some file =>
      obtain ⟨indirections, hplaced⟩ :=
        placeImport_session (session.ensureBundle files).session declaration file
      refine ⟨indirections, (session.ensureBundle files).session.nextId + 1, ?_⟩
      rw [load_of_located hbundled hlocated]
      simp [loadFile, hplaced, loadCount_ensureBundle]

/-- Loading gives a definition with the document that the import leads to, or the reason why there
is none. -/
theorem load_value (session : Session) (files : FileSystem) (declaration : ImportDeclaration) :
    (∃ definition, (session.load files declaration).value = .ok definition ∧
        definition.kind = declaration.kind ∧
        session.loadedDocument files declaration.kind declaration.key =
          .ok definition.document) ∨
      ∃ reason, (session.load files declaration).value = .error reason ∧
        session.loadedDocument files declaration.kind declaration.key = .error reason := by
  unfold loadedDocument bundledDocument?
  cases hbundled : (session.ensureBundle files).session.bundled?
      (declaration.kind.bundleLocation declaration.key.path) with
  | some definition =>
    rw [load_of_bundled hbundled]
    have hkind : definition.document.kind = .definition definition.kind := by
      cases definition <;> rfl
    by_cases hmatch : definition.kind = declaration.kind
    · left
      exact ⟨definition, by simp [hmatch], hmatch, by simp [Document.ofKind, hkind, hmatch]⟩
    · right
      refine ⟨.kindMismatch declaration.kind (.definition definition.kind), by simp [hmatch], ?_⟩
      simp [Document.ofKind, hkind, hmatch]
  | none =>
    cases hlocated : session.settings.locate files declaration.key.path with
    | none =>
      rw [load_of_not_located hbundled hlocated]
      exact .inr ⟨.notFound, rfl, rfl⟩
    | some file =>
      rw [load_of_located hbundled hlocated]
      have hplace := placeImport_value (session.ensureBundle files).session declaration file
      simp only [loadFile, hplace]
      exact readDefinition_eq _ files declaration.kind declaration.key file

end Load

/-! ## Resolving -/

/-- The definition that the alias table has for an import. -/
def aliased? (session : Session) (declaration : ImportDeclaration) : Option Definition :=
  declaration.key.aliasName.bind (session.aliases.get? declaration.kind ·)

theorem known?_eq (session : Session) (declaration : ImportDeclaration) :
    session.known? declaration = (session.aliased? declaration).or
      (session.cache.get? declaration.kind declaration.key) := rfl

theorem known?_eq_none_iff {session : Session} {declaration : ImportDeclaration} :
    session.known? declaration = none ↔ session.aliased? declaration = none ∧
      session.cache.get? declaration.kind declaration.key = none := by
  rw [known?_eq, Option.or_eq_none_iff]

/-- Resolving an import ends in one of three ways: it was known, it was loaded and is cached now,
or loading it failed. -/
theorem resolve_cases (session : Session) (files : FileSystem) (declaration : ImportDeclaration) :
    (∃ definition, session.known? declaration = some definition ∧
        session.resolve files declaration = { value := .ok definition, session := session }) ∨
      (∃ definition, session.known? declaration = none ∧
        definition.kind = declaration.kind ∧
        session.loadedDocument files declaration.kind declaration.key =
          .ok definition.document ∧
        session.resolve files declaration =
          { value := .ok definition
            session := (session.load files declaration).session.registerImport
              declaration.key definition
            log := (session.load files declaration).log }) ∨
      ∃ reason, session.known? declaration = none ∧
        session.loadedDocument files declaration.kind declaration.key = .error reason ∧
        session.resolve files declaration =
          { value := .error (.unresolvedImport declaration.key reason)
            session := (session.load files declaration).session
            log := (session.load files declaration).log ++
              [.error (ResolveError.unresolvedImport declaration.key reason).message] } := by
  cases hknown : session.known? declaration with
  | some definition => exact .inl ⟨definition, rfl, by simp only [resolve, hknown]⟩
  | none =>
    right
    rcases load_value session files declaration with
      ⟨definition, hvalue, hkind, hloaded⟩ | ⟨reason, hvalue, hloaded⟩
    · exact .inl ⟨definition, rfl, hkind, hloaded, by simp only [resolve, hknown, hvalue]⟩
    · exact .inr ⟨reason, rfl, hloaded, by simp only [resolve, hknown, hvalue]⟩

/-- What resolving imports leaves in place: the later session has the cached definitions of the
earlier one, and new ones only where loading leads to them. -/
structure Grown (files : FileSystem) (earlier later : Session) : Prop where
  settings : later.settings = earlier.settings
  aliases : later.aliases = earlier.aliases
  ignoredAliases : later.ignoredAliases = earlier.ignoredAliases
  bundle : earlier.bundle.isSome → later.bundle = earlier.bundle
  bundled : later.bundledDocument? files = earlier.bundledDocument? files
  kept : ∀ {kind key definition}, earlier.cache.get? kind key = some definition →
    later.cache.get? kind key = some definition
  added : ∀ {kind key definition}, later.cache.get? kind key = some definition →
    earlier.cache.get? kind key = some definition ∨
      earlier.loadedDocument files kind key = .ok definition.document

namespace Grown

variable {files : FileSystem} {earlier between later : Session}

theorem refl (files : FileSystem) (session : Session) : Grown files session session where
  settings := rfl
  aliases := rfl
  ignoredAliases := rfl
  bundle _ := rfl
  bundled := rfl
  kept h := h
  added h := .inl h

theorem loadedDocument (h : Grown files earlier later) :
    later.loadedDocument files = earlier.loadedDocument files :=
  loadedDocument_congr h.settings h.bundled

theorem trans (hfirst : Grown files earlier between) (hsecond : Grown files between later) :
    Grown files earlier later where
  settings := hsecond.settings.trans hfirst.settings
  aliases := hsecond.aliases.trans hfirst.aliases
  ignoredAliases := hsecond.ignoredAliases.trans hfirst.ignoredAliases
  bundle hsome := by
    have hbetween := hfirst.bundle hsome
    rw [hsecond.bundle (by rw [hbetween]; exact hsome), hbetween]
  bundled := hsecond.bundled.trans hfirst.bundled
  kept h := hsecond.kept (hfirst.kept h)
  added h := by
    rcases hsecond.added h with hcached | hloaded
    · exact hfirst.added hcached
    · rw [hfirst.loadedDocument] at hloaded
      exact .inr hloaded

theorem aliased? (h : Grown files earlier later) (declaration : ImportDeclaration) :
    later.aliased? declaration = earlier.aliased? declaration := by
  unfold Session.aliased?
  rw [h.aliases]

theorem known (h : Grown files earlier later) {declaration : ImportDeclaration}
    {definition : Definition} (hknown : earlier.known? declaration = some definition) :
    later.known? declaration = some definition := by
  rw [known?_eq] at hknown ⊢
  rw [h.aliased?]
  cases haliased : earlier.aliased? declaration with
  | some found =>
    rw [haliased] at hknown
    exact hknown
  | none =>
    rw [haliased, Option.none_or] at hknown
    rw [Option.none_or]
    exact h.kept hknown

/-- An import that cannot be loaded does not become known by what else is resolved. -/
theorem unknown (h : Grown files earlier later) {declaration : ImportDeclaration}
    {reason : ImportFailure} (hknown : earlier.known? declaration = none)
    (hloaded : earlier.loadedDocument files declaration.kind declaration.key = .error reason) :
    later.known? declaration = none := by
  obtain ⟨haliased, hcached⟩ := known?_eq_none_iff.1 hknown
  refine known?_eq_none_iff.2 ⟨by rw [h.aliased?, haliased], ?_⟩
  cases hlater : later.cache.get? declaration.kind declaration.key with
  | none => rfl
  | some definition =>
    rcases h.added hlater with hfound | hfound
    · rw [hcached] at hfound
      cases hfound
    · rw [hloaded] at hfound
      cases hfound

end Grown

theorem cache_load (session : Session) (files : FileSystem) (declaration : ImportDeclaration) :
    (session.load files declaration).session.cache = session.cache := by
  obtain ⟨indirections, nextId, hload⟩ := load_session session files declaration
  obtain ⟨bundle, id, hready⟩ := ensureBundle_session session files
  rw [hload, hready]

theorem bundle_load (session : Session) (files : FileSystem) (declaration : ImportDeclaration) :
    (session.load files declaration).session.bundle =
      (session.ensureBundle files).session.bundle := by
  obtain ⟨indirections, nextId, hload⟩ := load_session session files declaration
  rw [hload]

theorem grown_load (session : Session) (files : FileSystem) (declaration : ImportDeclaration) :
    Grown files session (session.load files declaration).session := by
  obtain ⟨indirections, nextId, hload⟩ := load_session session files declaration
  obtain ⟨bundle, id, hready⟩ := ensureBundle_session session files
  have hcache := cache_load session files declaration
  refine
    { settings := by rw [hload, hready]
      aliases := by rw [hload, hready]
      ignoredAliases := by rw [hload, hready]
      bundle := ?_
      bundled := bundledDocument?_congr (bundle_load session files declaration)
      kept := fun h => by rw [hcache]; exact h
      added := fun h => by rw [hcache] at h; exact .inl h }
  intro hsome
  obtain ⟨loaded, hloaded⟩ := Option.isSome_iff_exists.1 hsome
  rw [bundle_load, ensureBundle_of_bundle files hloaded]

theorem grown_registerImport {session : Session} {files : FileSystem} {key : ImportKey}
    {definition : Definition} (hcached : session.cache.get? definition.kind key = none)
    (hloaded : session.loadedDocument files definition.kind key = .ok definition.document) :
    Grown files session (session.registerImport key definition) := by
  refine
    { settings := rfl, aliases := rfl, ignoredAliases := rfl
      bundle := fun _ => rfl
      bundled := bundledDocument?_of_same_bundle files rfl rfl
      kept := ?_
      added := ?_ }
  · intro kind other found hfound
    rw [registerImport, Catalog.get?_insert, if_neg]
    · exact hfound
    · rintro ⟨rfl, rfl⟩
      rw [hcached] at hfound
      cases hfound
  · intro kind other found hfound
    rw [registerImport, Catalog.get?_insert] at hfound
    split at hfound
    · next heq =>
      obtain ⟨rfl, rfl⟩ := heq
      cases hfound
      exact .inr hloaded
    · exact .inl hfound

theorem grown_resolve (session : Session) (files : FileSystem) (declaration : ImportDeclaration) :
    Grown files session (session.resolve files declaration).session := by
  have hgrown := grown_load session files declaration
  rcases resolve_cases session files declaration with
    ⟨definition, -, hresolve⟩ | ⟨definition, hknown, hkind, hloaded, hresolve⟩ |
    ⟨reason, -, -, hresolve⟩
  · rw [hresolve]
    exact .refl files session
  · rw [hresolve]
    refine hgrown.trans (grown_registerImport ?_ ?_)
    · rw [cache_load, hkind]
      exact (known?_eq_none_iff.1 hknown).2
    · rw [hgrown.loadedDocument, hkind]
      exact hloaded
  · rw [hresolve]
    exact hgrown

theorem grown_resolveAll (session : Session) (files : FileSystem)
    (imports : List ImportDeclaration) :
    Grown files session (session.resolveAll files imports).session := by
  induction imports generalizing session with
  | nil => exact .refl files session
  | cons declaration rest ih =>
    exact (grown_resolve session files declaration).trans (ih _)

end Session

end CrossModel
