import CrossModel.Document.Import

/-!
# Conditions

A transition can carry a condition over the events that are in scope.
-/

namespace CrossModel

inductive Operator where
  | and | or | eq | ne | lt | le | gt | ge
deriving DecidableEq, Repr, Inhabited

inductive Literal where
  | bool (value : Bool)
  /-- Integers are written without a sign. -/
  | int (value : Nat)
  | string (value : String)
deriving DecidableEq, Repr, Inhabited

inductive Condition where
  | literal (value : Literal)
  /-- An event, or one of its fields. -/
  | access (target : Reference) (field : Option Name)
  | not (inner : Condition)
  | binary (op : Operator) (left right : Condition)
deriving DecidableEq, Repr, Inhabited

/-- The events that a condition reads, from left to right, each as often as it is read. -/
def Condition.accesses : Condition → List Reference
  | literal _ => []
  | access target _ => [target]
  | not inner => inner.accesses
  | binary _ left right => left.accesses ++ right.accesses

end CrossModel
