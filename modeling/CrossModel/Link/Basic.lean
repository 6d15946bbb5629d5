import CrossModel.Link.ResolveError

/-!
# Links

A link is what became of a reference: its target, or the reference itself if it leads nowhere.
Relations that are kept at both ends are bound only if there is exactly one candidate; all others
take the first candidate.
-/

namespace CrossModel

universe u v

/-- What a reference is for. -/
inductive Relation where
  /-- From a platform to the one it extends. -/
  | platformBase
  /-- From an execution model to a provider it uses. -/
  | usedProvider
  /-- From a rule to the event that triggers it. -/
  | ruleEvent
  /-- From a transition to the state it leads to. -/
  | transitionState
  /-- From a condition to an event that it reads. -/
  | conditionAccess
  /-- From an intent to the one it follows. -/
  | followedIntent
  /-- From an intent to one that follows it. -/
  | followingIntent
deriving DecidableEq, Repr, Inhabited

namespace Relation

/-- The same relation seen from its other end, if it is kept at both ends. -/
def opposite? : Relation → Option Relation
  | followedIntent => some followingIntent
  | followingIntent => some followedIntent
  | _ => none

def isBidirectional (relation : Relation) : Bool :=
  relation.opposite?.isSome

/-- What the relation leads to. -/
def target : Relation → SymbolKind
  | platformBase => .platform
  | usedProvider => .eventProvider
  | ruleEvent | conditionAccess => .event
  | transitionState => .state
  | followedIntent | followingIntent => .intent

end Relation

inductive Link (α : Type u) where
  | resolved (target : α)
  | unresolved (reference : Reference)
deriving DecidableEq, Repr

namespace Link

variable {α : Type u} {β : Type v}

def ofOption (reference : Reference) : Option α → Link α
  | some target => resolved target
  | none => unresolved reference

def isResolved : Link α → Bool
  | resolved _ => true
  | unresolved _ => false

def target? : Link α → Option α
  | resolved target => some target
  | unresolved _ => none

def unresolved? : Link α → Option Reference
  | resolved _ => none
  | unresolved reference => some reference

def map (f : α → β) : Link α → Link β
  | resolved target => resolved (f target)
  | unresolved reference => unresolved reference

/-- Gives an unresolved link a second chance. -/
def orElse (link : Link α) (resolve : Reference → Option α) : Link α :=
  match link with
  | resolved target => resolved target
  | unresolved reference => ofOption reference (resolve reference)

/-- The only element of a list with one element. -/
def only? : List α → Option α
  | [a] => some a
  | _ => none

/-- The link as it is first made: bound to the only candidate of a bidirectional relation, and
unresolved otherwise. -/
def create (relation : Relation) (reference : Reference) (candidates : Reference → List α) :
    Link α :=
  if relation.isBidirectional then ofOption reference (only? (candidates reference))
  else unresolved reference

/-- The link in the end: a relation that is not bidirectional takes the first candidate. -/
def establish (relation : Relation) (reference : Reference) (candidates : Reference → List α) :
    Link α :=
  let link := create relation reference candidates
  if relation.isBidirectional then link else link.orElse fun r => (candidates r).head?

end Link

end CrossModel
