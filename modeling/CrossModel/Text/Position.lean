/-!
# Positions and spans

A position is a line and a byte column, both counted from zero, ordered first by line and then by
column. A span is the stretch of text between two positions, both ends included.
-/

namespace CrossModel

/-- A place in a text: a line and a byte column, both counted from zero. -/
structure Position where
  line : Nat
  column : Nat
deriving DecidableEq, Repr, Inhabited

namespace Position

/-- The start of every text. -/
def zero : Position := ⟨0, 0⟩

instance : LE Position :=
  ⟨fun p q => p.line < q.line ∨ (p.line = q.line ∧ p.column ≤ q.column)⟩

instance : LT Position :=
  ⟨fun p q => p.line < q.line ∨ (p.line = q.line ∧ p.column < q.column)⟩

theorem le_def {p q : Position} :
    p ≤ q ↔ p.line < q.line ∨ (p.line = q.line ∧ p.column ≤ q.column) := Iff.rfl

theorem lt_def {p q : Position} :
    p < q ↔ p.line < q.line ∨ (p.line = q.line ∧ p.column < q.column) := Iff.rfl

instance (p q : Position) : Decidable (p ≤ q) := decidable_of_iff _ le_def.symm

instance (p q : Position) : Decidable (p < q) := decidable_of_iff _ lt_def.symm

end Position

/-- The stretch of text from `start` to `stop`. -/
structure Span where
  start : Position
  stop : Position
deriving DecidableEq, Repr, Inhabited

namespace Span

/-- The span of things that come from no text. -/
def zero : Span := ⟨.zero, .zero⟩

/-- The empty span at a position. -/
def point (p : Position) : Span := ⟨p, p⟩

/-- Whether a position lies in a span; both ends do. -/
def contains (s : Span) (p : Position) : Bool :=
  decide (s.start ≤ p ∧ p ≤ s.stop)

end Span

end CrossModel
