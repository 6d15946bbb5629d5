import CrossModel.Proofs.Session.Loading
import CrossModel.Proofs.Session.Run

/-!
# Updating imports

An update hands over a definition in place of all cached ones of its kind and name. It reaches
nothing but the cache, and loading does not look at the cache, so an import that is answered neither
by the alias table nor by a replaced definition has the same answer before and after.
-/

namespace CrossModel

universe u

/-- Whether two definitions have the same kind and name. -/
def Definition.isNamesake (a b : Definition) : Bool :=
  a.kind = b.kind ∧ a.name = b.name

/-- The same outcome with another cache. -/
def Step.withCache {α : Type u} (step : Step α) (cache : ImportCache) : Step α :=
  { step with session := { step.session with cache } }

namespace Session

variable {session : Session} {declaration : ImportDeclaration} {definition : Definition}

/-! ## Loading does not look at the cache -/

theorem ensureBundle_withCache (session : Session) (cache : ImportCache) (files : FileSystem) :
    ensureBundle { session with cache } files = (session.ensureBundle files).withCache cache := by
  unfold ensureBundle
  cases hbundle : session.bundle with
  | some bundle => simp [Step.withCache, hbundle]
  | none => cases hroot : session.settings.bundleRoot <;> simp [Step.withCache]

theorem placeImport_withCache (session : Session) (cache : ImportCache)
    (declaration : ImportDeclaration) (file : Path) :
    placeImport { session with cache } declaration file =
      (session.placeImport declaration file).withCache cache := by
  have hignored (name : String) : isAliasIgnored { session with cache } name =
      session.isAliasIgnored name := rfl
  unfold placeImport
  cases declaration.key.aliasName with
  | none => rfl
  | some name =>
    simp only [hignored]
    split <;> rfl

theorem loadFile_withCache (session : Session) (cache : ImportCache) (files : FileSystem)
    (declaration : ImportDeclaration) (file : Path) :
    loadFile { session with cache } files declaration file =
      (session.loadFile files declaration file).withCache cache := by
  unfold loadFile
  rw [placeImport_withCache]
  rfl

theorem load_withCache (session : Session) (cache : ImportCache) (files : FileSystem)
    (declaration : ImportDeclaration) :
    load { session with cache } files declaration =
      (session.load files declaration).withCache cache := by
  have hready := ensureBundle_withCache session cache files
  have hbundled (location : String) :
      (ensureBundle { session with cache } files).session.bundled? location =
        (session.ensureBundle files).session.bundled? location := by
    rw [hready]
    rfl
  cases hfound : (session.ensureBundle files).session.bundled?
      (declaration.kind.bundleLocation declaration.key.path) with
  | some bundled =>
    rw [load_of_bundled hfound, load_of_bundled ((hbundled _).trans hfound), hready]
    rfl
  | none =>
    cases hlocated : session.settings.locate files declaration.key.path with
    | none =>
      rw [load_of_not_located hfound hlocated,
        load_of_not_located ((hbundled _).trans hfound) hlocated, hready]
      rfl
    | some file =>
      have hloaded := loadFile_withCache (session.ensureBundle files).session cache files
        declaration file
      rw [load_of_located hfound hlocated,
        load_of_located ((hbundled _).trans hfound) hlocated, hready]
      simp only [Step.withCache] at hloaded ⊢
      rw [hloaded]

/-! ## Answers after an update -/

theorem resolve_of_known (h : session.known? declaration = some definition)
    (files : FileSystem) :
    session.resolve files declaration = { value := .ok definition, session := session } := by
  simp only [resolve, h]

/-- An import that is not known is answered alike with every cache in which it is not known. -/
theorem resolve_value_withCache {cache : ImportCache} (h : session.known? declaration = none)
    (hcache : known? { session with cache } declaration = none) (files : FileSystem) :
    (resolve { session with cache } files declaration).value =
      (session.resolve files declaration).value := by
  have hload := load_withCache session cache files declaration
  have hvalue : (load { session with cache } files declaration).value =
      (session.load files declaration).value := by
    rw [hload]
    rfl
  unfold resolve
  simp only [h, hcache, hvalue]
  cases (session.load files declaration).value <;> rfl

theorem get?_updateImport (session : Session) (definition : Definition) (kind : DefinitionKind)
    (key : ImportKey) :
    (session.updateImport definition).session.cache.get? kind key =
      (session.cache.get? kind key).map fun old =>
        if old.isNamesake definition then definition else old := by
  rw [updateImport, Catalog.get?_replaceNamed]
  simp only [Definition.isNamesake, decide_eq_true_eq]

theorem known?_updateImport_eq (session : Session) (definition : Definition)
    (declaration : ImportDeclaration) :
    (session.updateImport definition).session.known? declaration =
      (session.aliased? declaration).or
        ((session.cache.get? declaration.kind declaration.key).map fun old =>
          if old.isNamesake definition then definition else old) := by
  rw [known?_eq, get?_updateImport]
  rfl

/-- What becomes of an import by an update: it keeps its answer, unless that is a cached definition
of the kind and name of the new one. -/
structure AnsweredAfterUpdate (session : Session) (definition : Definition) (files : FileSystem)
    (declaration : ImportDeclaration) : Prop where
  aliased : ∀ known, session.aliased? declaration = some known →
    (session.resolve files declaration).value = .ok known ∧
    (session.updateImport definition).session.resolve files declaration =
      { value := .ok known, session := (session.updateImport definition).session }
  replaced : ∀ old, session.aliased? declaration = none →
    session.cache.get? declaration.kind declaration.key = some old →
    old.isNamesake definition = true →
    (session.updateImport definition).session.resolve files declaration =
      { value := .ok definition, session := (session.updateImport definition).session }
  kept : session.aliased? declaration = none →
    (∀ old, session.cache.get? declaration.kind declaration.key = some old →
      old.isNamesake definition = false) →
    ((session.updateImport definition).session.resolve files declaration).value =
      (session.resolve files declaration).value

theorem answeredAfterUpdate (session : Session) (definition : Definition) (files : FileSystem)
    (declaration : ImportDeclaration) :
    session.AnsweredAfterUpdate definition files declaration where
  aliased known haliased := by
    have hbefore : session.known? declaration = some known := by
      rw [known?_eq, haliased, Option.some_or]
    have hafter : (session.updateImport definition).session.known? declaration = some known := by
      rw [known?_updateImport_eq, haliased, Option.some_or]
    exact ⟨congrArg Step.value (resolve_of_known hbefore files), resolve_of_known hafter files⟩
  replaced old haliased hcached hnamesake := by
    apply resolve_of_known
    rw [known?_updateImport_eq, haliased, hcached, Option.none_or, Option.map_some,
      if_pos hnamesake]
  kept haliased hother := by
    have hafter := known?_updateImport_eq session definition declaration
    have hbefore := known?_eq session declaration
    rw [haliased, Option.none_or] at hafter hbefore
    cases hcached : session.cache.get? declaration.kind declaration.key with
    | some old =>
      rw [hcached, Option.map_some, hother old hcached] at hafter
      rw [hcached] at hbefore
      rw [resolve_of_known hafter, resolve_of_known hbefore]
      rfl
    | none =>
      rw [hcached] at hafter hbefore
      exact resolve_value_withCache hbefore hafter files

/-- An update puts the definition in place of exactly the cached ones of its kind and name, and
counts them. No key comes, goes or moves, nothing but the cache changes, and every import that is
not answered by a replaced definition is answered as before. -/
theorem updateImport_effect (session : Session) (definition : Definition) :
    let updated := session.updateImport definition
    updated.session.cache.keys = session.cache.keys ∧
    (∀ kind key, updated.session.cache.get? kind key = (session.cache.get? kind key).map fun old =>
      if old.isNamesake definition then definition else old) ∧
    (updated.value = session.cache.keys.countP fun entry =>
      (session.cache.get? entry.1 entry.2).any (·.isNamesake definition)) ∧
    updated.session = { session with cache := updated.session.cache } ∧
    ∀ files declaration, session.AnsweredAfterUpdate definition files declaration :=
  ⟨Catalog.keys_replaceNamed session.cache definition, get?_updateImport session definition,
    Catalog.countNamed_eq session.cache definition, rfl,
    answeredAfterUpdate session definition⟩

/-- A platform under this name, as instance number `id`. -/
def namedPlatform (id : Nat) (name : String) : Definition :=
  .platform ⟨id, { name := ⟨name, .zero⟩ }⟩

/-- An import with an alias that is registered. -/
def aliasedImport : ImportDeclaration :=
  { kind := .platform, path := "Other.platform", aliasName := some "other" }

/-- Platforms named `Base` under an import and under an alias, and one of another name. -/
def crowdedSession : Session :=
  (((start sampleSettings).registerImport baseImport.key (namedPlatform 1 "Base")).registerImport
    (.of "Else.platform" none) (namedPlatform 2 "Else")).registerAlias "other"
    (namedPlatform 3 "Base") |>.session

theorem updateImport_effect_crowdedSession :
    let updated := crowdedSession.updateImport (namedPlatform 4 "Base")
    updated.value = 1 ∧
    (updated.session.resolve .empty aliasedImport).value = .ok (namedPlatform 3 "Base") ∧
    (updated.session.resolve .empty baseImport).value = .ok (namedPlatform 4 "Base") ∧
    (updated.session.resolve .empty missingImport).value =
      (crowdedSession.resolve .empty missingImport).value := by
  obtain ⟨-, -, hcount, -, hanswered⟩ :=
    updateImport_effect crowdedSession (namedPlatform 4 "Base")
  have haliased := (hanswered .empty aliasedImport).aliased (namedPlatform 3 "Base") (by decide +kernel)
  have hreplaced := (hanswered .empty baseImport).replaced (namedPlatform 1 "Base") (by decide +kernel)
    (by decide +kernel) (by decide +kernel)
  have hmissing : crowdedSession.cache.get? .library missingImport.key = none := by decide +kernel
  refine ⟨?_, congrArg Step.value haliased.2, congrArg Step.value hreplaced, ?_⟩
  · rw [hcount]
    decide +kernel
  · apply (hanswered .empty missingImport).kept (by decide +kernel)
    intro old hold
    exact absurd (hmissing.symm.trans hold) nofun

end Session

end CrossModel
