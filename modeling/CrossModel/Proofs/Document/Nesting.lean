import CrossModel.Proofs.Document.Accesses

/-!
# How deep conditions are nested

The reader of conditions goes one level deeper behind a `!` and inside parentheses, and there is a
limit on the levels. A parenthesis leaves no trace in the condition that is read, and chains are
grouped from the left, so the limit shows as a bound on the ways from the root of the condition to
its leaves. At each level a way can step to a right operand of `||`, then to one of `&&`, and then
to one side of a comparison: three steps in all, besides those to the left along the two chains. A
negation costs a level and brings none of these steps.
-/

namespace CrossModel

/-! ## Ways through a condition -/

/-- A step from a condition to one of its parts. -/
inductive Turn where
  /-- To what is negated. -/
  | inner
  | left (op : Operator)
  | right (op : Operator)
deriving DecidableEq, Repr, Inhabited

namespace Turn

def isRight : Turn → Bool
  | right _ => true
  | _ => false

/-- To the left operand of `&&` or `||`. -/
def alongChain : Turn → Bool
  | left .and => true
  | left .or => true
  | _ => false

/-- To a right operand, or to either side of a comparison. -/
def branches : Turn → Bool
  | inner => false
  | turn => !turn.alongChain

theorem branches_of_isRight {turn : Turn} (h : turn.isRight = true) : turn.branches = true := by
  cases turn with
  | right op => rfl
  | _ => cases h

end Turn

/-- The ways from the root of a condition to its leaves. -/
def Condition.ways : Condition → List (List Turn)
  | literal _ => [[]]
  | access _ _ => [[]]
  | not inner => inner.ways.map (.inner :: ·)
  | binary op left right => left.ways.map (.left op :: ·) ++ right.ways.map (.right op :: ·)

theorem countP_isRight_le (way : List Turn) :
    way.countP Turn.isRight ≤ way.countP Turn.branches :=
  List.countP_mono_left fun _ _ => Turn.branches_of_isRight

/-- Each step is a negation, goes along a chain or branches off. -/
theorem length_eq_sum_turns (way : List Turn) :
    way.length = way.count .inner + way.countP Turn.alongChain + way.countP Turn.branches := by
  induction way with
  | nil => rfl
  | cons turn way ih =>
    have hone : (if turn == .inner then 1 else 0) + (if turn.alongChain then 1 else 0) +
        (if turn.branches then 1 else 0) = 1 := by
      cases turn with
      | inner => rfl
      | left op => cases op <;> rfl
      | right op => rfl
    rw [List.length_cons, List.count_cons, List.countP_cons, List.countP_cons, ih]
    omega

/-! ## Ways within a number of levels -/

/-- All ways to the leaves stay within `depth` levels: at most three steps branch off for each level
that no negation takes, and `spare` more. -/
structure Condition.Nested (depth spare : Nat) (condition : Condition) : Prop where
  negations : ∀ way ∈ condition.ways, way.count .inner ≤ depth
  branchings : ∀ way ∈ condition.ways,
    way.countP Turn.branches + 3 * way.count .inner ≤ 3 * depth + spare

namespace Condition.Nested

variable {depth spare : Nat}

theorem literal (value : Literal) : (Condition.literal value).Nested depth spare where
  negations := by simp [ways]
  branchings := by simp [ways]

theorem access (target : Reference) (field : Option Name) :
    (Condition.access target field).Nested depth spare where
  negations := by simp [ways]
  branchings := by simp [ways]

theorem mono {more : Nat} {condition : Condition} (h : condition.Nested depth spare)
    (hmore : spare ≤ more) : condition.Nested depth more where
  negations := h.negations
  branchings way hway := by
    have hbranchings := h.branchings way hway
    omega

/-- Parentheses pay for the three steps inside them. -/
theorem group {inner : Condition} (h : inner.Nested depth 3) : inner.Nested (depth + 1) 0 where
  negations way hway := by
    have hnegations := h.negations way hway
    omega
  branchings way hway := by
    have hbranchings := h.branchings way hway
    omega

theorem not {inner : Condition} (h : inner.Nested depth spare) :
    (Condition.not inner).Nested (depth + 1) spare where
  negations := by
    rw [ways, List.forall_mem_map]
    intro way hway
    have hnegations := h.negations way hway
    rw [List.count_cons_self]
    omega
  branchings := by
    rw [ways, List.forall_mem_map]
    intro way hway
    have hbranchings := h.branchings way hway
    rw [List.count_cons_self, List.countP_cons_of_neg (by decide)]
    omega

/-- A step to the right is paid for, and a step to the left unless it goes along a chain. -/
theorem binary {op : Operator} {leftSpare : Nat} {left right : Condition}
    (hleft : left.Nested depth leftSpare) (hright : right.Nested depth spare)
    (hcost : leftSpare + (Turn.left op).branches.toNat ≤ spare + 1) :
    (Condition.binary op left right).Nested depth (spare + 1) where
  negations := by
    rw [ways, List.forall_mem_append, List.forall_mem_map, List.forall_mem_map]
    refine ⟨fun way hway => ?_, fun way hway => ?_⟩
    · rw [List.count_cons_of_ne (by simp)]
      exact hleft.negations way hway
    · rw [List.count_cons_of_ne (by simp)]
      exact hright.negations way hway
  branchings := by
    rw [ways, List.forall_mem_append, List.forall_mem_map, List.forall_mem_map]
    refine ⟨fun way hway => ?_, fun way hway => ?_⟩
    · have hbranchings := hleft.branchings way hway
      rw [List.count_cons_of_ne (by simp), List.countP_cons]
      cases hstep : (Turn.left op).branches with
      | true =>
        rw [hstep, Bool.toNat_true] at hcost
        rw [if_pos rfl]
        omega
      | false =>
        rw [hstep, Bool.toNat_false] at hcost
        rw [if_neg Bool.false_ne_true]
        omega
    · have hbranchings := hright.branchings way hway
      rw [List.count_cons_of_ne (by simp), List.countP_cons_of_pos rfl]
      omega

theorem comparison {op : Operator} {left right : Condition} (hleft : left.Nested depth spare)
    (hright : right.Nested depth spare) :
    (Condition.binary op left right).Nested depth (spare + 1) :=
  hleft.binary hright (Nat.add_le_add_left (Bool.toNat_le _) spare)

/-- However long a chain is, a way through it steps to the right once at most. -/
theorem chain {op : Operator} (hop : (Turn.left op).branches = false) {first : Condition}
    {others : List Condition} (hfirst : first.Nested depth (spare + 1))
    (hothers : ∀ operand ∈ others, operand.Nested depth spare) :
    (others.foldl (.binary op) first).Nested depth (spare + 1) := by
  induction others generalizing first with
  | nil => exact hfirst
  | cons operand others ih =>
    obtain ⟨hoperand, hothers⟩ := List.forall_mem_cons.1 hothers
    have hcost : spare + 1 + (Turn.left op).branches.toNat ≤ spare + 1 := by
      rw [hop, Bool.toNat_false, Nat.add_zero]
    exact ih (hfirst.binary hoperand hcost) hothers

end Condition.Nested

/-! ## Readers of conditions -/

namespace Parser

variable {deeper : Option Deeper} {depth spare : Nat}

theorem nested_accessed : Spells accessed fun condition _ => condition.Nested depth spare := by
  refine spells_name.bind fun target _ _ => ?_
  exact (spells_name.after? _).bind_pure fun field _ _ => ⟨_, rfl, .access _ field⟩

theorem nested_atom
    (h : ∀ readers ∈ deeper,
      Spells readers.disjunction fun condition _ => condition.Nested depth 0) :
    Spells (Parser.atom deeper) fun condition _ => condition.Nested depth 0 := by
  refine Spells.next?_bind fun next => ?_
  split
  · exact (spells_keyword .trueKw).bind_pure fun _ _ _ => ⟨_, rfl, .literal _⟩
  · exact (spells_keyword .falseKw).bind_pure fun _ _ _ => ⟨_, rfl, .literal _⟩
  · exact spells_quotedText.bind_pure fun _ _ _ => ⟨_, rfl, .literal _⟩
  · exact spells_integer.bind_pure fun _ _ _ => ⟨_, rfl, .literal _⟩
  · refine Spells.descend fun readers hreaders => ?_
    refine (spells_symbol .openParen).bind fun _ _ _ => ?_
    refine (h readers hreaders).bind fun inner _ hinner => ?_
    exact (spells_symbol .closeParen).bind_pure fun _ _ _ => ⟨_, rfl, hinner⟩
  · exact nested_accessed
  · exact spells_reject _

theorem nested_comparison
    (h : Spells (Parser.atom deeper) fun condition _ => condition.Nested depth spare) :
    Spells (Parser.comparison deeper) fun condition _ => condition.Nested depth (spare + 1) := by
  refine h.bind fun left _ hleft => ?_
  have halone : left.Nested depth (spare + 1) := hleft.mono (Nat.le_succ spare)
  refine Spells.next?_bind fun next => ?_
  split
  · exact spells_pure halone
  · split
    · exact spells_pure halone
    · refine (spells_discard_expect _).bind fun _ _ _ => ?_
      exact h.bind_pure fun right _ hright => ⟨_, rfl, hleft.comparison hright⟩

theorem nested_unary
    (hunary : ∀ readers ∈ deeper,
      Spells readers.unary fun condition _ => (Condition.not condition).Nested depth 1)
    (hdisjunction : ∀ readers ∈ deeper,
      Spells readers.disjunction fun condition _ => condition.Nested depth 0) :
    Spells (Parser.unary deeper) fun condition _ => condition.Nested depth 1 := by
  refine Spells.next?_bind fun next => ?_
  split
  · refine Spells.descend fun readers hreaders => ?_
    refine (spells_symbol .bang).bind fun _ _ _ => ?_
    exact (hunary readers hreaders).bind_pure fun inner _ hinner => ⟨_, rfl, hinner⟩
  · exact nested_comparison (nested_atom hdisjunction)

theorem Spells.nested_chain {operand : Parser Condition} {op : Operator}
    (h : Spells operand fun condition _ => condition.Nested depth spare)
    (hop : (Turn.left op).branches = false) (mark : Symbol) :
    Spells (Parser.chain mark op operand) fun condition _ =>
      condition.Nested depth (spare + 1) := by
  refine (h.separated_stands mark).bind_pure fun items _ hitems => ⟨_, rfl, ?_⟩
  have hnested : ∀ item ∈ items.1 :: items.2, item.Nested depth spare := by
    intro item hitem
    obtain ⟨_, -, hnested⟩ := hitems item hitem
    exact hnested
  obtain ⟨hfirst, hothers⟩ := List.forall_mem_cons.1 hnested
  exact (hfirst.mono (Nat.le_succ spare)).chain hop hothers

theorem Spells.nested_disjunction
    (h : Spells (Parser.unary deeper) fun condition _ => condition.Nested depth 1) :
    Spells (Parser.disjunction deeper) fun condition _ => condition.Nested depth 3 :=
  (h.nested_chain rfl .both).nested_chain rfl .either

/-- By induction on how deep conditions may still be nested. -/
theorem nested_unary_deeper (depth : Nat) :
    Spells (Parser.unary (Parser.deeper depth)) fun condition _ => condition.Nested depth 1 := by
  induction depth with
  | zero => exact nested_unary nofun nofun
  | succ depth ih =>
    apply nested_unary
    · rintro _ ⟨⟩
      exact ih.imp fun _ _ hinner => hinner.not
    · rintro _ ⟨⟩
      exact ih.nested_disjunction.imp fun _ _ hinner => hinner.group

theorem nested_condition :
    Spells Parser.condition fun condition _ => condition.Nested nestingLimit 3 :=
  (nested_unary_deeper nestingLimit).nested_disjunction

theorem nested_transition : Spells Parser.transition fun transition _ =>
    ∀ condition ∈ transition.condition, condition.Nested nestingLimit 3 := by
  have hparts : Spells (do
      symbol .arrow
      let target ← name
      let condition ← after? (.keyword .whenKw) Parser.condition
      return (target, condition)) fun answer used => used ≠ [] ∧
        ∀ condition ∈ answer.2, condition.Nested nestingLimit 3 := by
    refine (spells_symbol .arrow).bind fun _ _ ⟨arrow, harrow, _⟩ => ?_
    refine spells_name.bind fun _ _ _ => ?_
    refine (nested_condition.after? _).bind_pure fun found _ hfound =>
      ⟨_, rfl, by simp [harrow], ?_⟩
    intro condition hcondition
    obtain ⟨_, -, hnested⟩ := hfound condition hcondition
    exact hnested
  refine (hparts.spanned fun _ _ hanswer => hanswer.1).bind_pure fun _ _ hanswer => ⟨_, rfl, ?_⟩
  exact hanswer.2.2

end Parser

/-! ## Documents -/

namespace Document

/-- On no way from the root of a condition to a leaf are there more than 64 negations, and each of
them takes three steps to the right away from the 195 that are possible without any. All that can
grow with the text is how far a way goes to the left along chains of `&&` and `||`. -/
theorem ways_of_condition_bounded {source location : String} {document : Document}
    (h : parse source location = .ok document) {rule : Rule} (hrule : rule ∈ document.rules)
    {transition : Transition} (htransition : transition ∈ rule.transitions) {condition : Condition}
    (hcondition : transition.condition = some condition) {way : List Turn}
    (hway : way ∈ condition.ways) :
    way.count .inner ≤ 64 ∧
      way.countP Turn.isRight ≤ 3 * (65 - way.count .inner) ∧
      way.length ≤ way.countP Turn.alongChain + 195 := by
  have hread := readFrom_of_parse Parser.spells_importDeclaration Parser.nested_transition h
  obtain ⟨_, -, hnested⟩ := hread.transitions rule hrule transition htransition
  have hnegations := (hnested condition hcondition).negations way hway
  have hbranchings := (hnested condition hcondition).branchings way hway
  have hright := countP_isRight_le way
  have hlength := length_eq_sum_turns way
  unfold nestingLimit at hnegations hbranchings
  refine ⟨hnegations, ?_, ?_⟩
  · omega
  · omega

/-- The way to the second event of the sample, inside the group that is negated. -/
def sampleWay : List Turn := [.left .or, .inner, .right .and]

theorem ways_of_condition_bounded_sampleGuard :
    parse sampleGuard "a" = .ok (.execution { rules := [sampleGuardRule], location := "a" }) ∧
    sampleWay ∈ sampleCondition.ways ∧
    sampleWay.count .inner ≤ 64 ∧
      sampleWay.countP Turn.isRight ≤ 3 * (65 - sampleWay.count .inner) ∧
      sampleWay.length ≤ sampleWay.countP Turn.alongChain + 195 := by
  have h : parse sampleGuard "a" =
      .ok (.execution { rules := [sampleGuardRule], location := "a" }) := by
    decide +kernel
  have hrule : sampleGuardRule ∈ [sampleGuardRule] := List.mem_singleton_self _
  have htransition : sampleTransition ∈ sampleGuardRule.transitions := List.mem_cons_self
  have hway : sampleWay ∈ sampleCondition.ways := by decide
  exact ⟨h, hway, ways_of_condition_bounded h hrule htransition rfl hway⟩

end Document

end CrossModel
