import CrossModel.Link.Scope

/-!
# Linked execution models

An execution model is linked against a scope: each provider in use, each event of a rule, each
target state and each event that a condition reads becomes a link.
-/

namespace CrossModel

structure LinkedTransition where
  /-- The index of the state that the transition leads to. -/
  state : Link Nat
  /-- The events that the condition reads, once per reading. -/
  accesses : List (Link EventHandle)
deriving DecidableEq, Repr

/-- The events that the condition of a transition reads, each once, by their first reading. -/
def LinkedTransition.accessedEvents (transition : LinkedTransition) : List EventHandle :=
  EventHandle.distinct (transition.accesses.filterMap (·.target?))

structure LinkedRule where
  event : Link EventHandle
  transitions : List LinkedTransition
deriving DecidableEq, Repr

structure LinkedExecution where
  location : String
  failedImports : List FailedImport
  providers : List (Link ProviderHandle)
  rules : List LinkedRule
deriving DecidableEq, Repr

namespace Scope

def linkProvider (scope : Scope) (reference : Reference) : Link ProviderHandle :=
  .establish .usedProvider reference fun r =>
    match scope.provider r.text with
    | .ok found => found.toList
    | .error _ => []

def linkEvent (scope : Scope) (relation : Relation) (reference : Reference) : Link EventHandle :=
  .establish relation reference fun r => (scope.event? r.text).toList

def linkTransition (scope : Scope) (model : Execution) (transition : Transition) :
    LinkedTransition where
  state := .establish .transitionState transition.state fun r =>
    (model.stateIndex? r.text).toList
  accesses := match transition.condition with
    | some condition => condition.accesses.map (scope.linkEvent .conditionAccess)
    | none => []

def linkRule (scope : Scope) (model : Execution) (rule : Rule) : LinkedRule where
  event := scope.linkEvent .ruleEvent rule.event
  transitions := rule.transitions.map (scope.linkTransition model)

def linkExecution (scope : Scope) (model : Execution) : LinkedExecution where
  location := model.location
  failedImports := scope.failures
  providers := model.providers.map scope.linkProvider
  rules := model.rules.map (scope.linkRule model)

/-- What linking an execution model logs. -/
def linkExecutionLog (model : Execution) : Log :=
  model.providers.flatMap fun reference => QualifiedName.parseLog reference.text

end Scope

namespace LinkedExecution

def transitionDiagnostics (location : String) (transition : LinkedTransition) :
    List Diagnostic :=
  Diagnostic.ofLink location .transitionState transition.state ++
    transition.accesses.flatMap (Diagnostic.ofLink location .conditionAccess)

def ruleDiagnostics (location : String) (rule : LinkedRule) : List Diagnostic :=
  Diagnostic.ofLink location .ruleEvent rule.event ++
    rule.transitions.flatMap (transitionDiagnostics location)

def diagnostics (linked : LinkedExecution) : List Diagnostic :=
  Diagnostic.inSourceOrder
    (linked.failedImports.map (Diagnostic.ofFailedImport linked.location) ++
      linked.providers.flatMap (Diagnostic.ofLink linked.location .usedProvider) ++
      linked.rules.flatMap (ruleDiagnostics linked.location))

/-- Whether all providers, events of rules and target states are resolved. -/
def isFullyResolved (linked : LinkedExecution) : Bool :=
  linked.providers.all (·.isResolved) &&
    linked.rules.all fun rule =>
      rule.event.isResolved && rule.transitions.all (·.state.isResolved)

end LinkedExecution

end CrossModel
