import CrossModel.Proofs.Link.Instances
import CrossModel.Proofs.Link.Reports
import CrossModel.Proofs.Session.Refresh
import CrossModel.Session.Link
import Mathlib.Data.List.Basic
import Mathlib.Data.List.Forall2
import Mathlib.Data.List.Induction

/-!
# Reports on execution models

Linking an execution model gives one link for each of its references, in their order. `faults` lists
what is wrong with a model, directly from its references, the outcomes of its imports and what is in
scope: no link is looked at. The main result is that the diagnostics of the linked model are these
faults in source order.
-/

namespace CrossModel

/-! ## The first use of each event -/

namespace EventHandle

/-- The handles that are not for the same event as an earlier one. -/
def firstUses (handles : List EventHandle) : List EventHandle :=
  handles.zipIdx.filterMap fun (handle, index) =>
    if (handles.take index).any (·.same handle) then none else some handle

theorem same_trans {a b c : EventHandle} (hab : a.same b = true) (hbc : b.same c = true) :
    a.same c = true := by
  cases a <;> cases b <;> cases c <;> simp_all [same]

theorem firstUses_concat (handles : List EventHandle) (handle : EventHandle) :
    firstUses (handles ++ [handle]) =
      firstUses handles ++ if handles.any (·.same handle) then [] else [handle] := by
  unfold firstUses
  rw [List.zipIdx_append, List.filterMap_append]
  congr 1
  · apply List.filterMap_congr
    rintro ⟨other, index⟩ hmem
    have hindex : index < handles.length := by
      have hother := List.mem_zipIdx_iff_getElem?.1 hmem
      exact (List.getElem?_eq_some_iff.1 hother).1
    dsimp only
    rw [List.take_append_of_le_length (Nat.le_of_lt hindex)]
  · rw [Nat.zero_add, List.zipIdx_singleton, List.filterMap_cons, List.filterMap_nil]
    dsimp only
    rw [List.take_left]
    by_cases hused : handles.any (·.same handle) = true
    · rw [if_pos hused, if_pos hused]
    · rw [if_neg hused, if_neg hused]

/-- Every event that is used has a first use. -/
theorem any_same_firstUses (handles : List EventHandle) (handle : EventHandle) :
    (firstUses handles).any (·.same handle) = handles.any (·.same handle) := by
  induction handles using List.reverseRecOn generalizing handle with
  | nil => rfl
  | append_singleton handles last ih =>
    rw [firstUses_concat, List.any_append, List.any_append, ih]
    by_cases hused : handles.any (·.same last) = true
    · -- The last use is for an event that was used before, so it makes no event used.
      obtain ⟨earlier, hmem, hsame⟩ := List.any_eq_true.1 hused
      have hcovered : last.same handle = true → handles.any (·.same handle) = true :=
        fun hlast => List.any_eq_true.2 ⟨earlier, hmem, same_trans hsame hlast⟩
      rw [if_pos hused, Bool.eq_iff_iff]
      simp only [List.any_nil, List.any_cons, Bool.or_false, Bool.or_eq_true]
      exact ⟨.inl, fun h => h.elim id hcovered⟩
    · rw [if_neg hused]

theorem distinct_eq_firstUses (handles : List EventHandle) :
    distinct handles = firstUses handles := by
  induction handles using List.reverseRecOn with
  | nil => rfl
  | append_singleton handles last ih =>
    have hstep : distinct (handles ++ [last]) = if (distinct handles).any (·.same last) then
        distinct handles else distinct handles ++ [last] := by
      rw [distinct, List.foldl_append]
      rfl
    rw [hstep, ih, any_same_firstUses, firstUses_concat]
    split
    · rw [List.append_nil]
    · rfl

end EventHandle

/-! ## What is wrong with a model -/

/-- The events that a transition reads, from left to right, each as often as it is read. -/
def Transition.accesses (transition : Transition) : List Reference :=
  (transition.condition.map Condition.accesses).getD []

/-- The provider that a reference leads to. A text that is no qualified name leads nowhere. -/
def Scope.providerOf? (scope : Scope) (reference : Reference) : Option ProviderHandle :=
  match scope.provider reference.text with
  | .ok found => found
  | .error _ => none

/-- The fault of an import, if it gave no definition. -/
def importFault (location : String) : Session.Outcome → Option Diagnostic
  | (declaration, .error error) => some (.invalidImport location declaration error)
  | (_, .ok _) => none

namespace Execution

def transitionFaults (model : Execution) (scope : Scope) (transition : Transition) :
    List Diagnostic :=
  (if model.states.any (·.text = transition.state.text) then []
    else [.missingState model.location transition.state]) ++
  (transition.accesses.filter fun reference => (scope.event? reference.text).isNone).map
    (Diagnostic.undefinedReference model.location)

def ruleFaults (model : Execution) (scope : Scope) (rule : Rule) : List Diagnostic :=
  (if (scope.event? rule.event.text).isSome then []
    else [.undefinedReference model.location rule.event]) ++
  rule.transitions.flatMap (model.transitionFaults scope)

/-- All faults of a model: first those of its imports, then those of the providers in use, then
those of its rules. -/
def faults (model : Execution) (scope : Scope) (outcomes : List Session.Outcome) :
    List Diagnostic :=
  outcomes.filterMap (importFault model.location) ++
  (model.providers.filter fun reference => (scope.providerOf? reference).isNone).map
    (Diagnostic.undefinedReference model.location) ++
  model.rules.flatMap (model.ruleFaults scope)

end Execution

/-! ## Links -/

namespace Scope

theorem linkProvider_eq (scope : Scope) (reference : Reference) :
    scope.linkProvider reference = .ofOption reference (scope.providerOf? reference) := by
  unfold linkProvider providerOf?
  rw [Link.establish_of_not_bidirectional rfl]
  cases scope.provider reference.text with
  | ok found => rw [Option.head?_toList]
  | error error => rfl

theorem linkEvent_eq (scope : Scope) (relation : Relation)
    (h : relation.isBidirectional = false) (reference : Reference) :
    scope.linkEvent relation reference = .ofOption reference (scope.event? reference.text) := by
  unfold linkEvent
  rw [Link.establish_of_not_bidirectional h, Option.head?_toList]

theorem state_linkTransition (scope : Scope) (model : Execution) (transition : Transition) :
    (scope.linkTransition model transition).state =
      .ofOption transition.state (model.stateIndex? transition.state.text) := by
  unfold linkTransition
  rw [Link.establish_of_not_bidirectional rfl, Option.head?_toList]

theorem accesses_linkTransition (scope : Scope) (model : Execution) (transition : Transition) :
    (scope.linkTransition model transition).accesses = transition.accesses.map
      fun reference => .ofOption reference (scope.event? reference.text) := by
  unfold linkTransition Transition.accesses
  cases transition.condition with
  | none => rfl
  | some condition =>
    apply List.map_congr_left
    intro reference _
    exact linkEvent_eq scope .conditionAccess rfl reference

theorem accessedEvents_linkTransition (scope : Scope) (model : Execution)
    (transition : Transition) :
    (scope.linkTransition model transition).accessedEvents =
      EventHandle.firstUses (transition.accesses.filterMap fun reference =>
        scope.event? reference.text) := by
  have htarget (reference : Reference) (found : Option EventHandle) :
      (Link.ofOption reference found).target? = found := by
    cases found <;> rfl
  rw [LinkedTransition.accessedEvents, EventHandle.distinct_eq_firstUses, accesses_linkTransition,
    List.filterMap_map]
  simp only [Function.comp_def, htarget]

end Scope

/-! ## Diagnostics -/

theorem Diagnostic.ofLink_ofOption {α : Type} {relation : Relation}
    (h : relation ≠ .transitionState) (location : String) (reference : Reference)
    (found : Option α) :
    ofLink location relation (.ofOption reference found) =
      if found.isSome then [] else [undefinedReference location reference] := by
  rw [ofLink_of_ne h, Link.unresolved?_ofOption]
  cases found <;> rfl

/-- The references that are looked up in vain are reported one by one. -/
theorem Diagnostic.flatMap_ofLink_ofOption {α : Type} {relation : Relation}
    (h : relation ≠ .transitionState) (location : String) (find : Reference → Option α)
    (references : List Reference) :
    references.flatMap (fun reference =>
        ofLink location relation (.ofOption reference (find reference))) =
      (references.filter fun reference => (find reference).isNone).map
        (undefinedReference location) := by
  induction references with
  | nil => rfl
  | cons reference rest ih =>
    rw [List.flatMap_cons, ih, ofLink_ofOption h]
    cases hfound : find reference <;> simp [hfound]

namespace Execution

variable (scope : Scope) (model : Execution)

theorem transitionDiagnostics_linkTransition (transition : Transition) :
    LinkedExecution.transitionDiagnostics model.location (scope.linkTransition model transition) =
      model.transitionFaults scope transition := by
  have hrelation : Relation.conditionAccess ≠ .transitionState := nofun
  have hstate : (model.stateIndex? transition.state.text).isSome =
      model.states.any (·.text = transition.state.text) := List.findIdx?_isSome
  unfold LinkedExecution.transitionDiagnostics transitionFaults
  rw [Scope.state_linkTransition, Scope.accesses_linkTransition, List.flatMap_map,
    Diagnostic.flatMap_ofLink_ofOption hrelation, Diagnostic.ofLink_transitionState,
    Link.unresolved?_ofOption, hstate]
  split <;> rfl

theorem ruleDiagnostics_linkRule (rule : Rule) :
    LinkedExecution.ruleDiagnostics model.location (scope.linkRule model rule) =
      model.ruleFaults scope rule := by
  have hrelation : Relation.ruleEvent ≠ .transitionState := nofun
  unfold LinkedExecution.ruleDiagnostics ruleFaults Scope.linkRule
  rw [Scope.linkEvent_eq scope .ruleEvent rfl, Diagnostic.ofLink_ofOption hrelation,
    List.flatMap_map]
  simp only [transitionDiagnostics_linkTransition]

theorem diagnostics_linkExecution {outcomes : List Session.Outcome}
    (h : scope.failures.map (Diagnostic.ofFailedImport model.location) =
      outcomes.filterMap (importFault model.location)) :
    (scope.linkExecution model).diagnostics =
      Diagnostic.inSourceOrder (model.faults scope outcomes) := by
  have hrelation : Relation.usedProvider ≠ .transitionState := nofun
  unfold LinkedExecution.diagnostics faults Scope.linkExecution
  simp only [h, List.flatMap_map, ruleDiagnostics_linkRule, Scope.linkProvider_eq,
    Diagnostic.flatMap_ofLink_ofOption hrelation]

/-! ## Models without faults -/

theorem isFullyResolved_linkExecution_iff :
    (scope.linkExecution model).isFullyResolved = true ↔
      (∀ reference ∈ model.providers, (scope.providerOf? reference).isSome) ∧
      ∀ rule ∈ model.rules, (scope.event? rule.event.text).isSome ∧
        ∀ transition ∈ rule.transitions, model.states.any (·.text = transition.state.text) := by
  have hresolved {α : Type} (reference : Reference) (found : Option α) :
      (Link.ofOption reference found).isResolved = found.isSome := by
    cases found <;> rfl
  have hstate (transition : Transition) :
      (scope.linkTransition model transition).state.isResolved =
        model.states.any (·.text = transition.state.text) := by
    rw [Scope.state_linkTransition, hresolved]
    exact List.findIdx?_isSome
  have hevent (rule : Rule) : (scope.linkEvent .ruleEvent rule.event).isResolved =
      (scope.event? rule.event.text).isSome := by
    rw [Scope.linkEvent_eq scope .ruleEvent rfl, hresolved]
  unfold LinkedExecution.isFullyResolved Scope.linkExecution Scope.linkRule
  simp only [List.all_map, Function.comp_def, Scope.linkProvider_eq, hresolved, hevent, hstate,
    Bool.and_eq_true, List.all_eq_true]

theorem any_concernsReference_importFaults (outcomes : List Session.Outcome) :
    (outcomes.filterMap (importFault model.location)).any Diagnostic.concernsReference = false := by
  rw [List.any_eq_false]
  intro fault hfault
  obtain ⟨⟨declaration, result⟩, -, heq⟩ := List.mem_filterMap.1 hfault
  cases result with
  | ok definition => cases heq
  | error error =>
    cases heq
    simp

/-- A model has no fault but those of imports exactly if all its references lead somewhere. -/
theorem any_concernsReference_faults_iff (outcomes : List Session.Outcome) :
    (model.faults scope outcomes).any Diagnostic.concernsReference = false ↔
      (∀ reference ∈ model.providers, (scope.providerOf? reference).isSome) ∧
      ∀ rule ∈ model.rules, (scope.event? rule.event.text).isSome ∧
        ∀ transition ∈ rule.transitions,
          model.states.any (·.text = transition.state.text) ∧
          ∀ reference ∈ transition.accesses, (scope.event? reference.text).isSome := by
  have hrequired (present : Bool) (fault : Diagnostic) (h : fault.concernsReference = true) :
      (if present then [] else [fault]).any Diagnostic.concernsReference = !present := by
    cases present <;> simp [h]
  unfold faults ruleFaults transitionFaults
  simp only [List.any_append, any_concernsReference_importFaults, List.any_flatMap, List.any_map,
    Function.comp_def, List.any_filter, Diagnostic.concernsReference_undefinedReference,
    Diagnostic.concernsReference_missingState, hrequired, Bool.false_or, Bool.and_true]
  simp [← Option.ne_none_iff_isSome]

end Execution

/-! ## The failures in a scope -/

namespace Session

theorem failures_push (scope : Scope) (aliasName : Option String) (origin : ScopeOrigin)
    (definition : Definition) : (scope.push aliasName origin definition).failures =
      scope.failures := by
  cases definition <;> rfl

theorem failures_pushAliases (aliases : AliasTable) (scope : Scope) :
    (pushAliases aliases scope).failures = scope.failures := by
  have hkept {α : Type} (definition : Shared α → Definition) (entries : List (String × Shared α))
      (scope : Scope) : (entries.foldl (fun scope entry =>
        scope.push (some entry.1) .aliasTable (definition entry.2)) scope).failures =
      scope.failures := by
    induction entries generalizing scope with
    | nil => rfl
    | cons entry rest ih => rw [List.foldl_cons, ih, failures_push]
  exact (hkept .library _ _).trans (hkept .platform _ _)

/-- The scope of a document has the failed imports in the order of their declarations. -/
theorem failures_foldl_pushResult (location : String) (outcomes : List Outcome) (scope : Scope) :
    (outcomes.foldl pushResult scope).failures.map (Diagnostic.ofFailedImport location) =
      scope.failures.map (Diagnostic.ofFailedImport location) ++
        outcomes.filterMap (importFault location) := by
  induction outcomes generalizing scope with
  | nil => simp
  | cons outcome rest ih =>
    obtain ⟨declaration, result⟩ := outcome
    rw [List.foldl_cons, ih]
    cases result with
    | ok definition =>
      rw [pushResult, failures_push]
      rfl
    | error error =>
      rw [pushResult, Scope.pushFailure, List.map_append, List.append_assoc]
      rfl

theorem failures_importScope (session : Session) (files : FileSystem)
    (imports : List ImportDeclaration) (location : String) :
    (session.importScope files imports).value.failures.map (Diagnostic.ofFailedImport location) =
      (imports.zip (session.refreshResults files imports).value).filterMap
        (importFault location) := by
  unfold importScope
  rw [failures_pushAliases, failures_foldl_pushResult]
  rfl

end Session

/-! ## Linked models -/

/-- What the links of a transition have to be: the first state with the name, if there is one, and
the events that the condition reads, by their first use. -/
structure TransitionLinked (scope : Scope) (model : Execution) (transition : Transition)
    (linked : LinkedTransition) : Prop where
  state_resolved : ∀ index, linked.state = .resolved index ↔
    (∃ name, model.states[index]? = some name ∧ name.text = transition.state.text) ∧
      ∀ earlier < index, ∀ name, model.states[earlier]? = some name →
        name.text ≠ transition.state.text
  state_unresolved : (∀ name ∈ model.states, name.text ≠ transition.state.text) →
    linked.state = .unresolved transition.state
  accessedEvents : linked.accessedEvents =
    EventHandle.firstUses (transition.accesses.filterMap fun reference =>
      scope.event? reference.text)

structure RuleLinked (scope : Scope) (model : Execution) (rule : Rule) (linked : LinkedRule) :
    Prop where
  event : linked.event = .ofOption rule.event (scope.event? rule.event.text)
  transitions : List.Forall₂ (TransitionLinked scope model) rule.transitions linked.transitions

theorem transitionLinked_linkTransition (scope : Scope) (model : Execution)
    (transition : Transition) :
    TransitionLinked scope model transition (scope.linkTransition model transition) where
  state_resolved index := by
    rw [Scope.state_linkTransition, Link.ofOption_eq_resolved, Execution.stateIndex?,
      List.findIdx?_eq_some_iff_getElem]
    simp only [decide_eq_true_eq, List.getElem?_eq_some_iff]
    constructor
    · rintro ⟨hindex, hname, hearlier⟩
      refine ⟨⟨_, ⟨hindex, rfl⟩, hname⟩, ?_⟩
      rintro earlier hless name ⟨-, rfl⟩
      exact hearlier earlier hless
    · rintro ⟨⟨name, ⟨hindex, rfl⟩, hname⟩, hearlier⟩
      refine ⟨hindex, hname, fun earlier hless => ?_⟩
      exact hearlier earlier hless _ ⟨Nat.lt_trans hless hindex, rfl⟩
  state_unresolved hmissing := by
    rw [Scope.state_linkTransition, Link.ofOption_eq_unresolved, Execution.stateIndex?,
      List.findIdx?_eq_none_iff]
    exact ⟨by simpa using hmissing, rfl⟩
  accessedEvents := Scope.accessedEvents_linkTransition scope model transition

theorem ruleLinked_linkRule (scope : Scope) (model : Execution) (rule : Rule) :
    RuleLinked scope model rule (scope.linkRule model rule) where
  event := Scope.linkEvent_eq scope .ruleEvent rfl rule.event
  transitions := by
    unfold Scope.linkRule
    rw [List.forall₂_map_right_iff, List.forall₂_same]
    exact fun transition _ => transitionLinked_linkTransition scope model transition

/-- Linking an execution model in any session gives a link for each reference, and reports exactly
what is wrong: the imports that failed, then the references that lead nowhere, in source order. So
nothing but imports is reported exactly if the model is fully resolved and its conditions read only
events in scope. -/
theorem Session.linkExecution_reports (session : Session) (files : FileSystem)
    (model : Execution) :
    let outcomes := model.imports.zip (session.refreshResults files model.imports).value
    let scope := (session.importScope files model.imports).value
    let linked := (session.linkExecution files model).value
    outcomes.map Prod.fst = model.imports ∧
    List.Forall₂ (fun reference link => link = .ofOption reference (scope.providerOf? reference))
      model.providers linked.providers ∧
    List.Forall₂ (RuleLinked scope model) model.rules linked.rules ∧
    Diagnostic.StablySorted (model.faults scope outcomes) linked.diagnostics ∧
    ((∀ diagnostic ∈ linked.diagnostics,
        diagnostic.code ≠ some "E0001" ∧ diagnostic.code ≠ some "E0015") ↔
      linked.isFullyResolved = true ∧
        ∀ rule ∈ model.rules, ∀ transition ∈ rule.transitions,
          ∀ reference ∈ transition.accesses, (scope.event? reference.text).isSome) := by
  intro outcomes scope linked
  have hlinked : linked = scope.linkExecution model := rfl
  have hsorted : Diagnostic.StablySorted (model.faults scope outcomes) linked.diagnostics := by
    rw [hlinked, Execution.diagnostics_linkExecution scope model
      (Session.failures_importScope session files model.imports model.location)]
    exact Diagnostic.stablySorted_inSourceOrder _
  refine ⟨?_, ?_, ?_, hsorted, ?_⟩
  · have hlength := length_resolveAll_value (session.evicted model.imports) files model.imports
    exact List.map_fst_zip (Nat.le_of_eq hlength.symm)
  · unfold linked linkExecution Scope.linkExecution
    rw [List.forall₂_map_right_iff, List.forall₂_same]
    exact fun reference _ => Scope.linkProvider_eq scope reference
  · unfold linked linkExecution Scope.linkExecution
    rw [List.forall₂_map_right_iff, List.forall₂_same]
    exact fun rule _ => ruleLinked_linkRule scope model rule
  · have hany : (∀ diagnostic ∈ linked.diagnostics,
        diagnostic.code ≠ some "E0001" ∧ diagnostic.code ≠ some "E0015") ↔
        (model.faults scope outcomes).any Diagnostic.concernsReference = false := by
      simp [List.any_eq_false, Diagnostic.concernsReference, hsorted.mem_iff]
    rw [hany, Execution.any_concernsReference_faults_iff, hlinked,
      Execution.isFullyResolved_linkExecution_iff]
    constructor
    · rintro ⟨hproviders, hrules⟩
      refine ⟨⟨hproviders, fun rule hrule => ⟨(hrules rule hrule).1, ?_⟩⟩, ?_⟩
      · exact fun transition htransition => ((hrules rule hrule).2 transition htransition).1
      · exact fun rule hrule transition htransition =>
          ((hrules rule hrule).2 transition htransition).2
    · rintro ⟨⟨hproviders, hrules⟩, haccesses⟩
      refine ⟨hproviders, fun rule hrule => ⟨(hrules rule hrule).1, ?_⟩⟩
      intro transition htransition
      exact ⟨(hrules rule hrule).2 transition htransition,
        haccesses rule hrule transition htransition⟩

end CrossModel
