import CrossModel.Proofs.Session.AliasBindings
import CrossModel.Proofs.Session.ExecutionReports
import Mathlib.Data.List.DropRight
import Mathlib.Data.List.Forall2

/-!
# What is in scope

The scope of a document is put together by pushing one thing after the other: the outcomes of its
imports, then the alias table. Each push adds at most one entry behind those of a kind
(`entriesOf_push`), so the entries of a kind are a `filterMap` of what was pushed. The order of the
alias table is that of a run: `boundAliases` reads it off the registrations since the last reset.
-/

namespace CrossModel

/-! ## Folds and filters -/

/-- If each step adds at most one part behind what is in view, a fold adds the parts of all items in
their order. -/
theorem foldl_view {σ α β : Type} (view : σ → List β) {step : σ → α → σ} {part? : α → Option β}
    (hstep : ∀ state item, view (step state item) = view state ++ (part? item).toList)
    (items : List α) (state : σ) :
    view (items.foldl step state) = view state ++ items.filterMap part? := by
  induction items generalizing state with
  | nil => exact (List.append_nil _).symm
  | cons item rest ih =>
    rw [List.foldl_cons, ih, hstep, List.append_assoc, List.filterMap_cons]
    cases part? item <;> rfl

theorem forall₂_filter_filterMap {α β : Type} {related : α → β → Prop} {accepts : α → Bool}
    {part? : α → Option β} {items : List α}
    (hpart : ∀ item ∈ items, accepts item = true → ∃ part, part? item = some part ∧
      related item part)
    (hnone : ∀ item ∈ items, accepts item = false → part? item = none) :
    List.Forall₂ related (items.filter accepts) (items.filterMap part?) := by
  induction items with
  | nil => exact .nil
  | cons item rest ih =>
    have hrest := ih (fun later hmem => hpart later (List.mem_cons_of_mem item hmem))
      (fun later hmem => hnone later (List.mem_cons_of_mem item hmem))
    by_cases haccepts : accepts item = true
    · obtain ⟨part, hsome, hrelated⟩ := hpart item List.mem_cons_self haccepts
      rw [List.filter_cons_of_pos haccepts, List.filterMap_cons_some hsome]
      exact .cons hrelated hrest
    · have hrejects := Bool.eq_false_iff.2 haccepts
      rw [List.filter_cons_of_neg haccepts,
        List.filterMap_cons_none (hnone item List.mem_cons_self hrejects)]
      exact hrest

/-! ## Entries of one kind -/

/-- A definition in scope, whichever kind it is of. -/
structure ScopeEntry where
  aliasName : Option String
  definition : Definition
  origin : ScopeOrigin
deriving DecidableEq

namespace Scope

/-- The platforms or the libraries in scope. -/
def entriesOf (scope : Scope) : DefinitionKind → List ScopeEntry
  | .platform => scope.platforms.map fun entry =>
    ⟨entry.aliasName, .platform entry.shared, entry.origin⟩
  | .library => scope.libraries.map fun entry =>
    ⟨entry.aliasName, .library entry.shared, entry.origin⟩

/-- The entry among those of a kind that a pushed definition makes. -/
def pushed? (kind : DefinitionKind) (aliasName : Option String) (origin : ScopeOrigin)
    (definition : Definition) : Option ScopeEntry :=
  if definition.kind = kind then some ⟨effectiveAlias aliasName, definition, origin⟩ else none

theorem entriesOf_push (scope : Scope) (aliasName : Option String) (origin : ScopeOrigin)
    (definition : Definition) (kind : DefinitionKind) :
    (scope.push aliasName origin definition).entriesOf kind =
      scope.entriesOf kind ++ (pushed? kind aliasName origin definition).toList := by
  cases definition with
  | platform shared =>
    cases kind with
    | platform => simp [push, entriesOf, pushed?, Definition.kind]
    | library => simp [push, entriesOf, pushed?, Definition.kind]
  | library shared =>
    cases kind with
    | platform => simp [push, entriesOf, pushed?, Definition.kind]
    | library => simp [push, entriesOf, pushed?, Definition.kind]

theorem entriesOf_pushFailure (scope : Scope) (failed : FailedImport) (kind : DefinitionKind) :
    (scope.pushFailure failed).entriesOf kind = scope.entriesOf kind := by
  cases kind <;> rfl

end Scope

namespace Session

/-! ## Imports -/

/-- The entry among those of a kind that an import makes. -/
def imported? (kind : DefinitionKind) : Outcome → Option ScopeEntry
  | (declaration, .ok definition) =>
    Scope.pushed? kind declaration.key.aliasName .declaration definition
  | (_, .error _) => none

/-- The failure that an import makes. -/
def failedImport? : Outcome → Option FailedImport
  | (_, .ok _) => none
  | (declaration, .error error) => some ⟨declaration, error⟩

theorem entriesOf_pushResult (kind : DefinitionKind) (scope : Scope) (outcome : Outcome) :
    (pushResult scope outcome).entriesOf kind =
      scope.entriesOf kind ++ (imported? kind outcome).toList := by
  obtain ⟨declaration, result⟩ := outcome
  cases result with
  | ok definition => exact scope.entriesOf_push _ _ definition kind
  | error error =>
    rw [pushResult, Scope.entriesOf_pushFailure, imported?, Option.toList_none,
      List.append_nil]

theorem failures_pushResult (scope : Scope) (outcome : Outcome) :
    (pushResult scope outcome).failures =
      scope.failures ++ (failedImport? outcome).toList := by
  obtain ⟨declaration, result⟩ := outcome
  cases result with
  | ok definition =>
    rw [pushResult, failures_push, failedImport?, Option.toList_none, List.append_nil]
  | error error => rfl

theorem effectiveAlias_key (declaration : ImportDeclaration) :
    effectiveAlias declaration.key.aliasName = declaration.key.aliasName := by
  show effectiveAlias (effectiveAlias declaration.aliasName) = effectiveAlias declaration.aliasName
  simp [effectiveAlias, Option.filter_filter]

/-- Each import makes one entry, of one of the two kinds, or one failure. -/
theorem countP_imported?_add (outcomes : List Outcome) :
    (outcomes.filterMap (imported? .platform)).countP (·.origin = .declaration) +
        (outcomes.filterMap (imported? .library)).countP (·.origin = .declaration) +
      (outcomes.filterMap failedImport?).length = outcomes.length := by
  induction outcomes with
  | nil => rfl
  | cons outcome rest ih =>
    obtain ⟨declaration, result⟩ := outcome
    rw [List.length_cons, ← ih]
    simp only [List.filterMap_cons]
    cases result with
    | ok definition =>
      cases definition with
      | platform shared =>
        simp only [imported?, failedImport?, Scope.pushed?, Definition.kind, reduceCtorEq,
          if_true, if_false, decide_true, List.countP_cons_of_pos]
        omega
      | library shared =>
        simp only [imported?, failedImport?, Scope.pushed?, Definition.kind, reduceCtorEq,
          if_true, if_false, decide_true, List.countP_cons_of_pos]
        omega
    | error error =>
      simp only [imported?, failedImport?, List.length_cons]
      omega

/-! ## The alias table -/

/-- The entry that an alias of the alias table makes. -/
def registeredEntry (registered : String × Definition) : ScopeEntry :=
  ⟨effectiveAlias (some registered.1), registered.2, .aliasTable⟩

theorem entriesOf_pushAliases (aliases : AliasTable) (scope : Scope) (kind : DefinitionKind) :
    (pushAliases aliases scope).entriesOf kind =
      scope.entriesOf kind ++ (aliases.entriesOf kind).map registeredEntry := by
  unfold pushAliases
  rw [foldl_view (Scope.entriesOf · kind) fun scope entry =>
      scope.entriesOf_push (some entry.1) .aliasTable (.library entry.2) kind,
    foldl_view (Scope.entriesOf · kind) fun scope entry =>
      scope.entriesOf_push (some entry.1) .aliasTable (.platform entry.2) kind]
  cases kind with
  | platform => simp [Scope.pushed?, Definition.kind, Catalog.entriesOf, registeredEntry]
  | library => simp [Scope.pushed?, Definition.kind, Catalog.entriesOf, registeredEntry]

/-! ## The order of aliases -/

/-- The alias that an operation registers for a definition of a kind. -/
def Operation.registers? (kind : DefinitionKind) : Operation → Option String
  | .registerAlias name definition => if definition.kind = kind then some name else none
  | _ => none

def Operation.isReset : Operation → Bool
  | .reset => true
  | _ => false

/-- The aliases that a run has registered for a kind since its last reset, each where it was
registered first. -/
def boundAliases (kind : DefinitionKind) (history : List (FileSystem × Operation)) : List String :=
  ((history.rtakeWhile (!·.2.isReset)).filterMap (·.2.registers? kind)).eraseDups

theorem eraseDups_append_toList (names : List String) (name? : Option String) :
    (names ++ name?.toList).eraseDups =
      names.eraseDups ++ (name?.filter (· ∉ names.eraseDups)).toList := by
  rw [List.eraseDups_append]
  cases name? with
  | none => rfl
  | some name =>
    by_cases hmem : name ∈ names
    · simp [List.removeAll, Option.filter, hmem]
    · simp [List.removeAll, Option.filter, hmem, List.eraseDups_cons]

theorem boundAliases_concat (kind : DefinitionKind) (history : List (FileSystem × Operation))
    (step : FileSystem × Operation) :
    boundAliases kind (history ++ [step]) =
      if step.2.isReset then [] else boundAliases kind history ++
        ((step.2.registers? kind).filter (· ∉ boundAliases kind history)).toList := by
  unfold boundAliases
  rw [List.rtakeWhile_concat]
  by_cases hreset : step.2.isReset = true
  · rw [if_pos hreset, hreset]
    rfl
  · have hkept : (!step.2.isReset) = true := by simp [hreset]
    have hlast : [step].filterMap (·.2.registers? kind) = (step.2.registers? kind).toList := by
      rw [List.filterMap_cons, List.filterMap_nil]
      cases step.2.registers? kind <;> rfl
    rw [if_neg hreset, if_pos hkept, List.filterMap_append, hlast, eraseDups_append_toList]

theorem keysOf_aliasesAfter (aliases : AliasTable) (operation : Operation)
    (kind : DefinitionKind) :
    (operation.aliasesAfter aliases).keysOf kind =
      if operation.isReset then [] else aliases.keysOf kind ++
        ((operation.registers? kind).filter (· ∉ aliases.keysOf kind)).toList := by
  cases operation with
  | registerAlias name definition =>
    rw [Operation.aliasesAfter, Catalog.keysOf_insert]
    by_cases hkind : definition.kind = kind
    · by_cases hmem : name ∈ aliases.keysOf kind
      · simp [Operation.registers?, Operation.isReset, Option.filter, hkind, hmem]
      · simp [Operation.registers?, Operation.isReset, Option.filter, hkind, hmem]
    · simp [Operation.registers?, Operation.isReset, hkind]
  | reset => cases kind <;> rfl
  | _ => exact (List.append_nil _).symm

/-- The alias table of a session has the aliases in the order in which the run registered them. -/
theorem keysOf_aliases_run (settings : Settings) (history : List (FileSystem × Operation))
    (kind : DefinitionKind) :
    ((start settings).run history).aliases.keysOf kind = boundAliases kind history := by
  induction history using List.reverseRecOn with
  | nil => cases kind <;> rfl
  | append_singleton history step ih =>
    rw [run_append, boundAliases_concat, ← ih, ← keysOf_aliasesAfter]
    exact congrArg (·.keysOf kind) (aliases_perform _ step.1 step.2)

example : boundAliases .platform ([.registerAlias "old" (namedPlatform 1 "A"), .reset,
    .registerAlias "b" (namedPlatform 2 "B"), .registerAlias "c" (namedLibrary 3 "C"),
    .registerAlias "" (namedPlatform 4 "D"), .registerAlias "b" (namedPlatform 5 "E")].map
      (FileSystem.empty, ·)) = ["b", ""] := by
  decide +kernel

/-! ## The contents of a scope -/

theorem kind_of_known? {session : Session} {declaration : ImportDeclaration}
    {definition : Definition} (h : session.known? declaration = some definition) :
    definition.kind = declaration.kind := by
  rw [known?_eq] at h
  rcases Option.or_eq_some_iff.1 h with haliased | ⟨-, hcached⟩
  · obtain ⟨name, -, hget⟩ := Option.bind_eq_some_iff.1 haliased
    exact Catalog.kind_of_get? hget
  · exact Catalog.kind_of_get? hcached

section Refreshed

variable (session : Session) (files : FileSystem) (imports : List ImportDeclaration)

/-- Each import has an outcome in a refresh, and asking for it afterwards gives this outcome. -/
theorem zip_refreshResults :
    imports.zip (session.refreshResults files imports).value = imports.map fun declaration =>
      (declaration,
        ((session.refreshResults files imports).session.resolve files declaration).value) := by
  let values := (session.refreshResults files imports).value
  let again (declaration : ImportDeclaration) : Outcome := (declaration,
    ((session.refreshResults files imports).session.resolve files declaration).value)
  have hagain : ∀ outcome ∈ imports.zip values, outcome = again outcome.1 := by
    intro outcome hmem
    have hsettled := settled_resolveAll (session.evicted imports) files imports outcome hmem
    exact Prod.ext rfl (resolve_of_settled hsettled).1.symm
  have hlength : imports.length ≤ values.length :=
    Nat.le_of_eq (length_resolveAll_value (session.evicted imports) files imports).symm
  calc imports.zip values
      = (imports.zip values).map fun outcome => again outcome.1 := by
        rw [← List.map_congr_left hagain, List.map_id']
    _ = ((imports.zip values).map Prod.fst).map again := by
        rw [List.map_map]
        rfl
    _ = imports.map again := by rw [List.map_fst_zip hlength]

theorem entriesOf_importScope (kind : DefinitionKind) :
    (session.importScope files imports).value.entriesOf kind =
      (imports.zip (session.refreshResults files imports).value).filterMap (imported? kind) ++
        (session.aliases.entriesOf kind).map registeredEntry := by
  have hempty : Scope.empty.entriesOf kind = [] := by cases kind <;> rfl
  unfold importScope
  rw [entriesOf_pushAliases, foldl_view (Scope.entriesOf · kind) (entriesOf_pushResult kind),
    hempty, List.nil_append, aliases_refreshResults]

theorem failures_importScope_eq :
    (session.importScope files imports).value.failures =
      (imports.zip (session.refreshResults files imports).value).filterMap failedImport? := by
  unfold importScope
  rw [failures_pushAliases, foldl_view Scope.failures failures_pushResult]
  rfl

theorem countP_declaration_importScope :
    let scope := (session.importScope files imports).value
    (scope.entriesOf .platform ++ scope.entriesOf .library).countP (·.origin = .declaration) +
      scope.failures.length = imports.length := by
  intro scope
  have hregistered (entries : List (String × Definition)) :
      (entries.map registeredEntry).countP (·.origin = .declaration) = 0 := by
    simp [List.countP_map, registeredEntry]
  have hcount := countP_imported?_add
    (imports.zip (session.refreshResults files imports).value)
  have hlength : (imports.zip (session.refreshResults files imports).value).length =
      imports.length := by
    rw [zip_refreshResults, List.length_map]
  rw [List.countP_append, entriesOf_importScope, entriesOf_importScope, failures_importScope_eq,
    List.countP_append, List.countP_append, hregistered, hregistered]
  omega

end Refreshed

/-- How an import that gave a definition stands in scope, where `after` is the session then: the
session gives this instance for it again, whatever has become of the files, and nothing changes. -/
structure ImportedAs (after : Session) (outcome : Outcome) (entry : ScopeEntry) : Prop where
  origin : entry.origin = .declaration
  aliasName : entry.aliasName = effectiveAlias outcome.1.aliasName
  definition : outcome.2 = .ok entry.definition
  again : ∀ files, after.resolve files outcome.1 =
    { value := .ok entry.definition, session := after }

/-- How an alias stands in scope: with what it was bound to last. -/
structure RegisteredAs (kind : DefinitionKind) (history : List (FileSystem × Operation))
    (name : String) (entry : ScopeEntry) : Prop where
  origin : entry.origin = .aliasTable
  aliasName : entry.aliasName = if name = "" then none else some name
  definition : bound? kind name history = some entry.definition

theorem forall₂_importedAs (session : Session) (files : FileSystem)
    (imports : List ImportDeclaration) (kind : DefinitionKind) :
    let refreshed := session.refreshResults files imports
    List.Forall₂ (ImportedAs refreshed.session)
      ((imports.zip refreshed.value).filter fun outcome =>
        outcome.1.kind = kind ∧ outcome.2.isOk = true)
      ((imports.zip refreshed.value).filterMap (imported? kind)) := by
  intro refreshed
  have hsettled := settled_resolveAll (session.evicted imports) files imports
  apply forall₂_filter_filterMap
  · rintro ⟨declaration, result⟩ hmem haccepts
    obtain ⟨hkind, hok⟩ := of_decide_eq_true haccepts
    cases result with
    | error error => cases hok
    | ok definition =>
      have hknown : refreshed.session.known? declaration = some definition := hsettled _ hmem
      have hdefined : definition.kind = kind := (kind_of_known? hknown).trans hkind
      refine ⟨⟨effectiveAlias declaration.key.aliasName, definition, .declaration⟩,
        if_pos hdefined, rfl, ?_, rfl, ?_⟩
      · exact effectiveAlias_key declaration
      · exact resolve_of_known hknown
  · rintro ⟨declaration, result⟩ hmem hrejects
    cases result with
    | error error => rfl
    | ok definition =>
      have hknown : refreshed.session.known? declaration = some definition := hsettled _ hmem
      have hother : definition.kind ≠ kind := by
        rw [kind_of_known? hknown]
        intro hkind
        exact of_decide_eq_false hrejects ⟨hkind, rfl⟩
      exact if_neg hother

theorem forall₂_registeredAs (settings : Settings) (history : List (FileSystem × Operation))
    (kind : DefinitionKind) :
    List.Forall₂ (RegisteredAs kind history) (boundAliases kind history)
      ((((start settings).run history).aliases.entriesOf kind).map registeredEntry) := by
  rw [← keysOf_aliases_run settings, ← Catalog.map_fst_entriesOf, List.forall₂_map_left_iff,
    List.forall₂_map_right_iff, List.forall₂_same]
  rintro ⟨name, definition⟩ hmem
  refine ⟨rfl, ?_, ?_⟩
  · by_cases hempty : name = "" <;> simp [registeredEntry, effectiveAlias, Option.filter, hempty]
  · rw [← get?_aliases_run settings]
    exact Catalog.get?_of_mem_entriesOf hmem

/-- The scope of a document in a reachable session drops and reorders nothing. The entries of each
kind are first the imports of this kind that gave a definition, in their order, and then the aliases
that are bound for this kind, by their first registration since the last reset. The failures are the
other imports with their errors, in their order. So every import is there once, in scope or failed;
asking for it again has the same outcome. -/
theorem importScope_lists_imports_then_aliases (settings : Settings)
    (history : List (FileSystem × Operation)) (files : FileSystem)
    (imports : List ImportDeclaration) :
    let session := (start settings).run history
    let inScope := session.importScope files imports
    let outcomes := imports.zip (session.refreshResults files imports).value
    outcomes = imports.map (fun declaration =>
      (declaration, (inScope.session.resolve files declaration).value)) ∧
    (∀ kind, ∃ imported registered, inScope.value.entriesOf kind = imported ++ registered ∧
      List.Forall₂ (ImportedAs inScope.session)
        (outcomes.filter fun outcome => outcome.1.kind = kind ∧ outcome.2.isOk = true) imported ∧
      List.Forall₂ (RegisteredAs kind history) (boundAliases kind history) registered) ∧
    inScope.value.failures = outcomes.filterMap failedImport? ∧
    (inScope.value.entriesOf .platform ++ inScope.value.entriesOf .library).countP
      (·.origin = .declaration) + inScope.value.failures.length = imports.length := by
  intro session inScope outcomes
  refine ⟨zip_refreshResults session files imports, ?_,
    failures_importScope_eq session files imports,
    countP_declaration_importScope session files imports⟩
  intro kind
  exact ⟨_, _, entriesOf_importScope session files imports kind,
    forall₂_importedAs session files imports kind, forall₂_registeredAs settings history kind⟩

end Session

end CrossModel
