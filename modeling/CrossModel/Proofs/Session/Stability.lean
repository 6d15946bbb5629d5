import CrossModel.Proofs.Session.Refresh
import CrossModel.Proofs.Session.Run

/-!
# Imports keep their instances

Once an import was resolved, it is answered by the alias table or by the cache, whatever becomes of
the files. The answer stays the same instance until an operation hands over another definition in
its place, drops its key from the cache or resets the session. `Operation.spares` says which
operations do none of this, and each of them keeps the answer that the session knows.
-/

namespace CrossModel.Session

/-- Whether an operation leaves the answer to an import alone: it keeps the key of the import if it
refreshes imports, registers nothing under the alias or the key of the import, and updates no
definition of the kind and name of the answer. -/
def Operation.spares (declaration : ImportDeclaration) (definition : Definition)
    (operation : Operation) : Bool :=
  match operation.refreshed? with
  | some imports => (imports.map (·.key)).contains declaration.key
  | none =>
    match operation with
    | .registerAlias name other =>
      ¬ (other.kind = declaration.kind ∧ some name = declaration.key.aliasName)
    | .registerImport path aliasName other =>
      ¬ (other.kind = declaration.kind ∧ .of path aliasName = declaration.key)
    | .updateImport other => ¬ (other.kind = definition.kind ∧ other.name = definition.name)
    | .reset => false
    | _ => true

variable {session later : Session} {declaration : ImportDeclaration} {definition : Definition}

/-! ## Single changes -/

theorem known?_of_same_tables (haliases : later.aliases = session.aliases)
    (hcache : later.cache = session.cache) (declaration : ImportDeclaration) :
    later.known? declaration = session.known? declaration := by
  unfold known?
  rw [haliases, hcache]

theorem known?_registerAlias {name : String} {other : Definition}
    (h : ¬ (other.kind = declaration.kind ∧ some name = declaration.key.aliasName)) :
    (session.registerAlias name other).session.known? declaration =
      session.known? declaration := by
  have haliased : (session.registerAlias name other).session.aliased? declaration =
      session.aliased? declaration := by
    unfold aliased? registerAlias
    cases hgiven : declaration.key.aliasName with
    | none => rfl
    | some given =>
      have hother : ¬ (other.kind = declaration.kind ∧ name = given) := by
        rintro ⟨hkind, rfl⟩
        exact h ⟨hkind, hgiven.symm⟩
      simp only [Option.bind_some, Catalog.get?_insert, if_neg hother]
  have hcache : (session.registerAlias name other).session.cache = session.cache := rfl
  rw [known?_eq, known?_eq, haliased, hcache]

theorem known?_registerImport {key : ImportKey} {other : Definition}
    (h : ¬ (other.kind = declaration.kind ∧ key = declaration.key)) :
    (session.registerImport key other).known? declaration = session.known? declaration := by
  have haliased : (session.registerImport key other).aliased? declaration =
      session.aliased? declaration := rfl
  rw [known?_eq, known?_eq, haliased, registerImport, Catalog.get?_insert, if_neg h]

/-- An update passes by the alias table, and by cached definitions of another kind or name. -/
theorem known?_updateImport {other : Definition}
    (hknown : session.known? declaration = some definition)
    (h : ¬ (other.kind = definition.kind ∧ other.name = definition.name)) :
    (session.updateImport other).session.known? declaration = some definition := by
  have haliased : (session.updateImport other).session.aliased? declaration =
      session.aliased? declaration := rfl
  have hcache : (session.updateImport other).session.cache =
      (session.cache.replaceNamed other).2 := rfl
  have hother : ¬ (definition.kind = other.kind ∧ definition.name = other.name) := by
    rintro ⟨hkind, hname⟩
    exact h ⟨hkind.symm, hname.symm⟩
  rw [known?_eq] at hknown ⊢
  rw [haliased, hcache, Catalog.get?_replaceNamed]
  cases hfound : session.aliased? declaration with
  | some found =>
    rw [hfound] at hknown
    exact hknown
  | none =>
    rw [hfound, Option.none_or] at hknown
    rw [Option.none_or, hknown, Option.map_some, if_neg hother]

theorem known?_ignoreAlias (session : Session) (name : String)
    (declaration : ImportDeclaration) :
    (session.ignoreAlias name).known? declaration = session.known? declaration := by
  obtain ⟨ignored, heq⟩ := ignoreAlias_eq session name
  rw [heq]
  exact known?_of_same_tables rfl rfl declaration

theorem known?_ensureBundle (session : Session) (files : FileSystem)
    (declaration : ImportDeclaration) :
    (session.ensureBundle files).session.known? declaration = session.known? declaration := by
  obtain ⟨bundle, nextId, heq⟩ := ensureBundle_session session files
  rw [heq]
  exact known?_of_same_tables rfl rfl declaration

/-- A refresh keeps the answer to an import if one of its imports has the same key, even one of the
other kind. -/
theorem known?_refreshResults {files : FileSystem} {imports : List ImportDeclaration}
    (hknown : session.known? declaration = some definition)
    (h : declaration.key ∈ imports.map (·.key)) :
    (session.refreshResults files imports).session.known? declaration = some definition := by
  have hevicted : (session.evicted imports).known? declaration = some definition := by
    obtain ⟨other, hother, hkey⟩ := List.mem_map.1 h
    have hcached : (session.evicted imports).cache.get? declaration.kind other.key =
        session.cache.get? declaration.kind other.key := get?_evicted hother declaration.kind
    have haliased : (session.evicted imports).aliased? declaration =
        session.aliased? declaration := rfl
    rw [hkey] at hcached
    rw [known?_eq, haliased, hcached, ← known?_eq]
    exact hknown
  exact (grown_resolveAll (session.evicted imports) files imports).known hevicted

/-! ## Runs -/

theorem known?_perform {files : FileSystem} {operation : Operation}
    (hknown : session.known? declaration = some definition)
    (h : operation.spares declaration definition = true) :
    (session.perform files operation).known? declaration = some definition := by
  unfold Operation.spares at h
  cases hrefreshed : operation.refreshed? with
  | some imports =>
    rw [hrefreshed] at h
    rw [perform_of_refreshed? hrefreshed]
    exact known?_refreshResults hknown (List.contains_iff_mem.1 h)
  | none =>
    rw [hrefreshed] at h
    cases operation with
    | resolve other => exact (grown_resolve session files other).known hknown
    | ensureBundle => exact (known?_ensureBundle session files declaration).trans hknown
    | ignoreAlias name => exact (known?_ignoreAlias session name declaration).trans hknown
    | adopt document => exact (known?_of_same_tables rfl rfl declaration).trans hknown
    | registerAlias name other =>
      exact (known?_registerAlias (of_decide_eq_true h)).trans hknown
    | registerImport path aliasName other =>
      exact (known?_registerImport (of_decide_eq_true h)).trans hknown
    | updateImport other => exact known?_updateImport hknown (of_decide_eq_true h)
    | reset => cases h
    | _ => cases hrefreshed

/-- After an import was resolved, any run of operations that spare its answer, over files that may
change, leaves the session with the same instance for it: resolving it once more gives that instance
and changes and logs nothing. -/
theorem resolve_after_run_of_spares {files : FileSystem}
    (h : (session.resolve files declaration).value = .ok definition)
    {history : List (FileSystem × Operation)}
    (hhistory : ∀ step ∈ history, step.2.spares declaration definition = true)
    (changed : FileSystem) :
    let after := (session.resolve files declaration).session.run history
    after.resolve changed declaration = { value := .ok definition, session := after } := by
  intro after
  have hresolved := settled_resolve session files declaration
  rw [h] at hresolved
  have hafter : after.known? declaration = some definition := by
    apply @run_induction (·.known? declaration = some definition)
    · exact hresolved
    · intro step hstep before hbefore
      exact known?_perform hbefore (hhistory step hstep)
  simp only [resolve, hafter]

def otherPlatform : Definition :=
  .platform ⟨7, { name := ⟨"Other", .zero⟩ }⟩

/-- A run without any files that does something next to the imported platform in every way. -/
def sparingRun : List (FileSystem × Operation) :=
  [.resolve missingImport, .resolve { baseImport with aliasName := none }, .ensureBundle,
    .ignoreAlias "base", .registerAlias "other" otherPlatform,
    .registerImport "Base.platform" none otherPlatform, .updateImport otherPlatform,
    .refresh [missingImport, { baseImport with kind := .library }],
    .check (.execution { imports := [baseImport] })].map (FileSystem.empty, ·)

theorem resolve_after_sparingRun :
    ∃ definition, ((start sampleSettings).resolve sampleFiles baseImport).value = .ok definition ∧
      (∀ step ∈ sparingRun, step.2.spares baseImport definition = true) ∧
      let after := ((start sampleSettings).resolve sampleFiles baseImport).session.run sparingRun
      after.resolve .empty baseImport = { value := .ok definition, session := after } := by
  have hspares : (((start sampleSettings).resolve sampleFiles baseImport).value.toOption.any
      fun definition => sparingRun.all (·.2.spares baseImport definition)) = true := by
    decide +kernel
  cases hvalue : ((start sampleSettings).resolve sampleFiles baseImport).value with
  | error error =>
    rw [hvalue] at hspares
    cases hspares
  | ok definition =>
    rw [hvalue] at hspares
    have hhistory : ∀ step ∈ sparingRun, step.2.spares baseImport definition = true :=
      List.all_eq_true.1 hspares
    exact ⟨definition, rfl, hhistory, resolve_after_run_of_spares hvalue hhistory .empty⟩

end CrossModel.Session
