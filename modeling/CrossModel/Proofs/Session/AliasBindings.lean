import CrossModel.Proofs.Session.Refresh
import CrossModel.Proofs.Session.Update
import Mathlib.Data.List.Induction

/-!
# Registered aliases

An alias is bound for each kind apart, and only two operations decide what it is bound to:
registering it for a definition of the kind, and a reset. `Operation.rebinds` says so as a test, and
the last operation of a run that passes the test determines the binding (`get?_aliases_run`). The
alias table is asked before anything else, so a bound alias answers its imports whatever becomes of
the cache, the bundle and the files.
-/

namespace CrossModel.Session

/-- Whether an operation decides what an alias is bound to for a kind: it registers the alias for a
definition of this kind, or it forgets all aliases. -/
def Operation.rebinds (kind : DefinitionKind) (name : String) : Operation → Bool
  | .registerAlias other definition => definition.kind = kind ∧ other = name
  | .reset => true
  | _ => false

/-- What an operation that rebinds an alias binds it to. -/
def Operation.registered? : Operation → Option Definition
  | .registerAlias _ definition => some definition
  | _ => none

/-- What the last operation of a run that rebinds an alias has bound it to. -/
def bound? (kind : DefinitionKind) (name : String) (history : List (FileSystem × Operation)) :
    Option Definition :=
  (history.filter (·.2.rebinds kind name)).getLast?.bind (·.2.registered?)

/-! ## Steps -/

theorem aliases_refreshResults (session : Session) (files : FileSystem)
    (imports : List ImportDeclaration) :
    (session.refreshResults files imports).session.aliases = session.aliases :=
  (grown_resolveAll (session.evicted imports) files imports).aliases

theorem aliases_ensureBundle (session : Session) (files : FileSystem) :
    (session.ensureBundle files).session.aliases = session.aliases := by
  obtain ⟨bundle, nextId, heq⟩ := ensureBundle_session session files
  rw [heq]

theorem aliases_ignoreAlias (session : Session) (name : String) :
    (session.ignoreAlias name).aliases = session.aliases := by
  obtain ⟨ignored, heq⟩ := ignoreAlias_eq session name
  rw [heq]

/-- The alias table after an operation. -/
def Operation.aliasesAfter (aliases : AliasTable) : Operation → AliasTable
  | .registerAlias name definition => (aliases.insert name definition).2
  | .reset => .empty
  | _ => aliases

theorem aliases_perform (session : Session) (files : FileSystem) (operation : Operation) :
    (session.perform files operation).aliases = operation.aliasesAfter session.aliases := by
  cases hrefreshed : operation.refreshed? with
  | some imports =>
    have hother : operation.aliasesAfter session.aliases = session.aliases := by
      cases operation with
      | registerAlias name definition => cases hrefreshed
      | reset => cases hrefreshed
      | _ => rfl
    rw [perform_of_refreshed? hrefreshed, aliases_refreshResults, hother]
  | none =>
    cases operation with
    | resolve declaration => exact (grown_resolve session files declaration).aliases
    | ensureBundle => exact aliases_ensureBundle session files
    | ignoreAlias other => exact aliases_ignoreAlias session other
    | adopt document => rfl
    | registerAlias name definition => rfl
    | registerImport path aliasName definition => rfl
    | updateImport definition => rfl
    | reset => rfl
    | _ => cases hrefreshed

/-- An operation that rebinds an alias leaves it bound to what it registers, and every other
operation leaves the alias as it is. -/
theorem get?_aliases_perform (session : Session) (files : FileSystem) (operation : Operation)
    (kind : DefinitionKind) (name : String) :
    (session.perform files operation).aliases.get? kind name =
      if operation.rebinds kind name then operation.registered?
      else session.aliases.get? kind name := by
  rw [aliases_perform]
  cases operation with
  | registerAlias other definition =>
    rw [Operation.aliasesAfter, Catalog.get?_insert]
    simp only [Operation.rebinds, Operation.registered?, decide_eq_true_eq]
  | reset => exact Catalog.get?_empty kind name
  | _ => rfl

/-! ## Runs -/

theorem bound?_concat (kind : DefinitionKind) (name : String)
    (history : List (FileSystem × Operation)) (step : FileSystem × Operation) :
    bound? kind name (history ++ [step]) =
      if step.2.rebinds kind name then step.2.registered? else bound? kind name history := by
  unfold bound?
  rw [List.filter_append]
  cases hrebinds : step.2.rebinds kind name with
  | true => simp [hrebinds]
  | false => simp [hrebinds]

/-- After a run, the alias table holds what the last registration of each alias has put there. -/
theorem get?_aliases_run (settings : Settings) (history : List (FileSystem × Operation))
    (kind : DefinitionKind) (name : String) :
    ((start settings).run history).aliases.get? kind name = bound? kind name history := by
  induction history using List.reverseRecOn with
  | nil => exact Catalog.get?_empty kind name
  | append_singleton history step ih =>
    rw [run_append, bound?_concat, ← ih]
    exact get?_aliases_perform _ step.1 step.2 kind name

/-- A registration decides as long as no later operation rebinds the alias. -/
theorem bound?_of_last_registration {name : String} {definition : Definition}
    {later : List (FileSystem × Operation)}
    (hlater : ∀ step ∈ later, step.2.rebinds definition.kind name = false)
    (earlier : List (FileSystem × Operation)) (files : FileSystem) :
    bound? definition.kind name (earlier ++ (files, .registerAlias name definition) :: later) =
      some definition := by
  have hnone : later.filter (·.2.rebinds definition.kind name) = [] := by
    rw [List.filter_eq_nil_iff]
    intro step hstep
    rw [hlater step hstep]
    exact Bool.false_ne_true
  have hself : (files, Operation.registerAlias name definition).2.rebinds definition.kind name =
      true := by
    simp [Operation.rebinds]
  unfold bound?
  rw [List.filter_append, List.filter_cons, if_pos hself, hnone, List.getLast?_concat]
  rfl

/-! ## Answers -/

/-- An import under a bound alias is answered at once. -/
theorem resolve_of_aliased {session : Session} {declaration : ImportDeclaration}
    {definition : Definition} (h : session.aliased? declaration = some definition)
    (files : FileSystem) :
    session.resolve files declaration = { value := .ok definition, session := session } := by
  have hknown : session.known? declaration = some definition := by
    rw [known?_eq, h, Option.some_or]
  exact resolve_of_known hknown files

theorem resolveAll_of_aliased {session : Session} {declaration : ImportDeclaration}
    {definition : Definition} (h : session.aliased? declaration = some definition)
    {files : FileSystem} {imports : List ImportDeclaration}
    {result : Except ResolveError Definition}
    (hresult : (declaration, result) ∈ imports.zip (session.resolveAll files imports).value) :
    result = .ok definition := by
  induction imports generalizing session with
  | nil => cases hresult
  | cons first rest ih =>
    rw [resolveAll, List.zip_cons_cons] at hresult
    rcases List.mem_cons.1 hresult with heq | hrest
    · cases heq
      rw [resolve_of_aliased h]
    · have hkept := (grown_resolve session files first).aliased? declaration
      exact ih (hkept.trans h) hrest

theorem aliased?_of_bound {settings : Settings} {history : List (FileSystem × Operation)}
    {declaration : ImportDeclaration} {name : String} {definition : Definition}
    (hname : name ≠ "") (halias : declaration.aliasName = some name)
    (h : bound? declaration.kind name history = some definition) :
    ((start settings).run history).aliased? declaration = some definition := by
  have hkey : declaration.key.aliasName = some name := by
    simp [ImportDeclaration.key, ImportKey.of, effectiveAlias, halias, hname, Option.filter]
  rw [aliased?, hkey, Option.bind_some, get?_aliases_run, h]

/-- What registering a definition under an alias gives and logs, where `previous` is what the alias
was bound to: it gives `previous`, and warns if that is another instance. -/
structure ReportsPrevious (name : String) (definition : Definition) (previous : Option Definition)
    (registered : Step (Option Definition)) : Prop where
  value : registered.value = previous
  silent : (∀ old ∈ previous, old.same definition = true) → registered.log = []
  conflict : ∀ old ∈ previous, old.same definition = false → registered.log =
    [.warn (ResolveError.aliasConflict name old.location definition.location).message]

theorem reportsPrevious_registerAlias (session : Session) (name : String)
    (definition : Definition) :
    ReportsPrevious name definition (session.aliases.get? definition.kind name)
      (session.registerAlias name definition) where
  value := rfl
  silent hsame := by
    simp only [registerAlias, Catalog.insert_fst]
    cases hprevious : session.aliases.get? definition.kind name with
    | none => rfl
    | some old => simp [hsame old hprevious]
  conflict old hprevious hother := by
    simp only [registerAlias, Catalog.insert_fst]
    rw [Option.mem_def.1 hprevious]
    simp [hother]

/-- The last registration of an alias wins for the rest of the session. Whatever the run did before
it, and whatever follows that does not rebind the alias for its kind, every import of the kind under
the alias is answered by the registered instance, alone or in a refresh; answering it changes and
logs nothing. Each registration gives what the alias was bound to for the kind, and warns if and
only if that is another instance. -/
theorem last_registration_wins (settings : Settings) :
    (∀ earlier files name definition later, name ≠ "" →
      (∀ step ∈ later, step.2.rebinds definition.kind name = false) →
      let after :=
        (start settings).run (earlier ++ (files, .registerAlias name definition) :: later)
      ∀ declaration, declaration.kind = definition.kind → declaration.aliasName = some name →
        ∀ changed, after.resolve changed declaration =
            { value := .ok definition, session := after } ∧
          ∀ (imports : List ImportDeclaration) (result : Except ResolveError Definition),
            (declaration, result) ∈ imports.zip (after.refreshResults changed imports).value →
            result = .ok definition) ∧
    ∀ history name definition,
      ReportsPrevious name definition (bound? definition.kind name history)
        (((start settings).run history).registerAlias name definition) := by
  constructor
  · intro earlier files name definition later hname hlater after declaration hkind halias changed
    have hbound := bound?_of_last_registration hlater earlier files
    rw [← hkind] at hbound
    have haliased : after.aliased? declaration = some definition :=
      aliased?_of_bound hname halias hbound
    refine ⟨resolve_of_aliased haliased changed, ?_⟩
    intro imports result hresult
    have hevicted : (after.evicted imports).aliased? declaration = some definition := haliased
    exact resolveAll_of_aliased hevicted hresult
  · intro history name definition
    rw [← get?_aliases_run settings]
    exact reportsPrevious_registerAlias _ name definition

/-- A library under this name, as instance number `id`. -/
def namedLibrary (id : Nat) (name : String) : Definition :=
  .library ⟨id, { name := ⟨name, .zero⟩ }⟩

/-- Operations without any files that touch an alias in every way but by rebinding it as a
platform. -/
def aliasKeepingRun : List (FileSystem × Operation) :=
  [.registerAlias "base" (namedLibrary 5 "Base"), .registerAlias "other" (namedPlatform 6 "Base"),
    .registerImport "Base.platform" (some "base") (namedPlatform 7 "Base"), .ignoreAlias "base",
    .updateImport (namedPlatform 8 "Base"), .refresh [missingImport],
    .resolve { baseImport with aliasName := none }].map (FileSystem.empty, ·)

theorem last_registration_wins_aliasKeepingRun :
    let earlier := [(sampleFiles, .resolve baseImport),
      (sampleFiles, .registerAlias "base" (namedPlatform 3 "Else"))]
    let after := (start sampleSettings).run
      (earlier ++ (.empty, .registerAlias "base" (namedPlatform 4 "Base")) :: aliasKeepingRun)
    (∀ step ∈ aliasKeepingRun, step.2.rebinds .platform "base" = false) ∧
    after.resolve .empty baseImport =
      { value := .ok (namedPlatform 4 "Base"), session := after } ∧
    (((start sampleSettings).run earlier).registerAlias "base" (namedPlatform 4 "Base")).value =
      some (namedPlatform 3 "Else") := by
  obtain ⟨hwins, hreports⟩ := last_registration_wins sampleSettings
  have hkeeping : ∀ step ∈ aliasKeepingRun, step.2.rebinds .platform "base" = false := by
    decide +kernel
  refine ⟨hkeeping, ?_, ?_⟩
  · exact (hwins _ .empty "base" (namedPlatform 4 "Base") aliasKeepingRun (by decide) hkeeping
      baseImport rfl rfl .empty).1
  · rw [(hreports _ "base" (namedPlatform 4 "Base")).value]
    decide +kernel

end CrossModel.Session
