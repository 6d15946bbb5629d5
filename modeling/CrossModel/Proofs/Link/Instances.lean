import CrossModel.Link.Execution
import CrossModel.Link.Definitions

/-!
# Linking does not look at instances

Which references are resolved depends on the content of the definitions in scope and on their order,
not on which instances they are. So a document has the same diagnostics in two scopes that differ
in the numbers of instances alone.
-/

namespace CrossModel

universe u

/-! ## Definitions and scopes without numbers -/

def Shared.unnumbered {α : Type u} (shared : Shared α) : Shared α :=
  { shared with id := 0 }

def Definition.unnumbered : Definition → Definition
  | platform shared => platform shared.unnumbered
  | library shared => library shared.unnumbered

/-- Definitions with the same content differ in their numbers only. -/
theorem Definition.unnumbered_eq_iff {a b : Definition} :
    a.unnumbered = b.unnumbered ↔ a.document = b.document := by
  cases a with
  | platform first =>
    cases b with
    | platform second => simp [unnumbered, document, Shared.unnumbered]
    | library second => simp [unnumbered, document]
  | library first =>
    cases b with
    | platform second => simp [unnumbered, document]
    | library second => simp [unnumbered, document, Shared.unnumbered]

def Scoped.unnumbered {α : Type u} (entry : Scoped α) : Scoped α :=
  { entry with shared := entry.shared.unnumbered }

namespace Scope

def unnumbered (scope : Scope) : Scope where
  platforms := scope.platforms.map (·.unnumbered)
  libraries := scope.libraries.map (·.unnumbered)
  failures := scope.failures

theorem unnumbered_push (scope : Scope) (aliasName : Option String) (origin : ScopeOrigin)
    (definition : Definition) :
    (scope.push aliasName origin definition).unnumbered =
      scope.unnumbered.push aliasName origin definition.unnumbered := by
  cases definition with
  | platform shared =>
    simp [push, unnumbered, Definition.unnumbered, Scoped.unnumbered]
  | library shared =>
    simp [push, unnumbered, Definition.unnumbered, Scoped.unnumbered]

theorem unnumbered_pushFailure (scope : Scope) (failed : FailedImport) :
    (scope.pushFailure failed).unnumbered = scope.unnumbered.pushFailure failed := rfl

/-! ## Look-ups -/

theorem platform?_unnumbered (scope : Scope) (name : String) :
    scope.unnumbered.platform? name = (scope.platform? name).map Shared.unnumbered := by
  have hanswers : (fun entry : Scoped Platform => entry.answersTo name) ∘ Scoped.unnumbered =
      fun entry => entry.answersTo name := rfl
  unfold platform? unnumbered
  rw [List.find?_map, hanswers, Option.map_map, Option.map_map]
  rfl

theorem isSome_providerNamed?_unnumbered (scope : Scope) (name : QualifiedName) :
    (scope.unnumbered.providerNamed? name).isSome = (scope.providerNamed? name).isSome := by
  unfold providerNamed?
  rw [platform?_unnumbered]
  cases scope.platform? name.platform with
  | none => rfl
  | some platform =>
    have hcontent : platform.unnumbered.content = platform.content := rfl
    simp only [Option.map_some, Option.bind_eq_bind, Option.bind_some, hcontent]
    cases platform.content.providers.findIdx? (·.name.text = name.provider) <;> rfl

theorem isSome_ofLibrary?_unnumbered (library : Shared Library) (name : String) :
    (EventHandle.ofLibrary? library.unnumbered name).isSome =
      (EventHandle.ofLibrary? library name).isSome := by
  unfold EventHandle.ofLibrary?
  rw [Option.isSome_map, Option.isSome_map]
  rfl

theorem isSome_ofPlatform?_unnumbered (platform : Shared Platform) (name : String) :
    (EventHandle.ofPlatform? platform.unnumbered name).isSome =
      (EventHandle.ofPlatform? platform name).isSome := by
  have hcontent : platform.unnumbered.content = platform.content := rfl
  unfold EventHandle.ofPlatform?
  rw [hcontent, Bool.eq_iff_iff, List.isSome_findSome?, List.isSome_findSome?]
  simp only [List.any_eq_true, Option.isSome_map]

theorem isSome_event?_unnumbered (scope : Scope) (name : String) :
    (scope.unnumbered.event? name).isSome = (scope.event? name).isSome := by
  unfold event? unnumbered
  simp only [Option.isSome_or, List.findSome?_map, List.isSome_findSome?, Function.comp_def,
    Scoped.unnumbered, isSome_ofLibrary?_unnumbered, isSome_ofPlatform?_unnumbered]

end Scope

/-! ## Links and diagnostics -/

theorem Link.unresolved?_ofOption {α : Type u} (reference : Reference) (found : Option α) :
    (Link.ofOption reference found).unresolved? =
      if found.isSome then none else some reference := by
  cases found <;> rfl

/-- A link that takes the first candidate is unresolved if there is no candidate. -/
theorem Link.unresolved?_establish {α : Type u} {relation : Relation}
    (h : relation.isBidirectional = false) (reference : Reference)
    (candidates : Reference → List α) :
    (Link.establish relation reference candidates).unresolved? =
      if (candidates reference).head?.isSome then none else some reference := by
  unfold establish create
  simp only [h, Bool.false_eq_true, if_false]
  exact unresolved?_ofOption reference (candidates reference).head?

namespace Scope

theorem unresolved?_linkProvider_unnumbered (scope : Scope) (reference : Reference) :
    (scope.unnumbered.linkProvider reference).unresolved? =
      (scope.linkProvider reference).unresolved? := by
  unfold linkProvider provider
  rw [Link.unresolved?_establish rfl, Link.unresolved?_establish rfl]
  cases QualifiedName.parse reference.text with
  | error error => rfl
  | ok name =>
    simp only [Except.map, Option.head?_toList, isSome_providerNamed?_unnumbered]

theorem unresolved?_linkEvent_unnumbered (scope : Scope) (relation : Relation)
    (h : relation.isBidirectional = false) (reference : Reference) :
    (scope.unnumbered.linkEvent relation reference).unresolved? =
      (scope.linkEvent relation reference).unresolved? := by
  unfold linkEvent
  rw [Link.unresolved?_establish h, Link.unresolved?_establish h]
  simp only [Option.head?_toList, isSome_event?_unnumbered]

theorem transitionDiagnostics_unnumbered (scope : Scope) (model : Execution)
    (transition : Transition) (location : String) :
    LinkedExecution.transitionDiagnostics location
        (scope.unnumbered.linkTransition model transition) =
      LinkedExecution.transitionDiagnostics location (scope.linkTransition model transition) := by
  unfold LinkedExecution.transitionDiagnostics linkTransition
  cases transition.condition with
  | none => rfl
  | some condition =>
    simp only [List.flatMap_map, Diagnostic.ofLink,
      unresolved?_linkEvent_unnumbered scope .conditionAccess rfl]

theorem ruleDiagnostics_unnumbered (scope : Scope) (model : Execution) (rule : Rule)
    (location : String) :
    LinkedExecution.ruleDiagnostics location (scope.unnumbered.linkRule model rule) =
      LinkedExecution.ruleDiagnostics location (scope.linkRule model rule) := by
  unfold LinkedExecution.ruleDiagnostics linkRule
  simp only [List.flatMap_map, transitionDiagnostics_unnumbered, Diagnostic.ofLink,
    unresolved?_linkEvent_unnumbered scope .ruleEvent rfl]

theorem diagnostics_linkExecution_unnumbered (scope : Scope) (model : Execution) :
    (scope.unnumbered.linkExecution model).diagnostics =
      (scope.linkExecution model).diagnostics := by
  unfold LinkedExecution.diagnostics linkExecution
  simp only [List.flatMap_map, ruleDiagnostics_unnumbered, Diagnostic.ofLink,
    unresolved?_linkProvider_unnumbered]
  rfl

theorem diagnostics_linkPlatform_unnumbered (scope : Scope) (platform : Platform) :
    (scope.unnumbered.linkPlatform platform).diagnostics =
      (scope.linkPlatform platform).diagnostics := by
  unfold LinkedPlatform.diagnostics linkPlatform
  cases platform.base with
  | none => rfl
  | some reference =>
    simp only [Option.map_some, Option.toList_some, List.flatMap_cons, List.flatMap_nil,
      Diagnostic.ofLink, base?, platform?_unnumbered]
    rw [Link.unresolved?_establish rfl, Link.unresolved?_establish rfl]
    simp only [Option.head?_toList, Option.isSome_map]
    rfl

end Scope

end CrossModel
