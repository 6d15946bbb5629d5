import CrossModel.Proofs.Document.Provenance

/-!
# The events that a condition reads

A condition is a tree, and its events are the leaves of the tree that are no literals. Here they are
found without the tree: they are the identifiers among the lexemes of the condition that no dot
stands before, in the order of the text. Parentheses, negations and chains of operators change the
tree but not the order of its leaves, so each case of `Condition.WrittenAs` keeps this.
-/

namespace CrossModel

/-! ## Identifiers without a dot -/

/-- The identifiers that no dot stands right before, where `before` is the lexeme before the first
one. -/
def eventLexemes (before : Lexeme) (lexemes : List Lexeme) : List Lexeme :=
  (((before :: lexemes).zip lexemes).filter fun pair =>
    pair.2.kind = .ident ∧ pair.1.kind ≠ .symbol .dot).map Prod.snd

theorem eventLexemes_nil (before : Lexeme) : eventLexemes before [] = [] := rfl

theorem eventLexemes_cons (before lexeme : Lexeme) (lexemes : List Lexeme) :
    eventLexemes before (lexeme :: lexemes) =
      if lexeme.kind = .ident ∧ before.kind ≠ .symbol .dot then
        lexeme :: eventLexemes lexeme lexemes
      else eventLexemes lexeme lexemes := by
  rw [eventLexemes, List.zip_cons_cons, List.filter_cons]
  split <;> split <;> simp_all [eventLexemes]

/-- A lexeme that is no identifier parts the events before it from those behind it. -/
theorem eventLexemes_append_cons {mark : Lexeme} (hmark : mark.kind ≠ .ident) (before : Lexeme)
    (front back : List Lexeme) : eventLexemes before (front ++ mark :: back) =
      eventLexemes before front ++ eventLexemes mark back := by
  induction front generalizing before with
  | nil => rw [List.nil_append, eventLexemes_cons, if_neg (fun h => hmark h.1), eventLexemes_nil,
      List.nil_append]
  | cons lexeme front ih =>
    rw [List.cons_append, eventLexemes_cons, eventLexemes_cons, ih]
    split <;> rfl

theorem eventLexemes_sublist (before : Lexeme) (lexemes : List Lexeme) :
    (eventLexemes before lexemes).Sublist lexemes := by
  have hall : ((before :: lexemes).zip lexemes).map Prod.snd = lexemes :=
    List.map_snd_zip (Nat.le_succ _)
  have hsome := (List.filter_sublist (p := fun pair : Lexeme × Lexeme =>
    pair.2.kind = .ident ∧ pair.1.kind ≠ .symbol .dot)
    (l := (before :: lexemes).zip lexemes)).map Prod.snd
  rwa [hall] at hsome

/-! ## Conditions -/

/-- By induction on how the condition is written. What stands before it can be any mark but a dot,
so the parts of a condition need nothing to be known about their neighbours. -/
theorem Condition.WrittenAs.accesses_eq {condition : Condition} {used : List Lexeme}
    (h : condition.WrittenAs used) {before : Lexeme} (hbefore : before.kind ≠ .symbol .dot) :
    condition.accesses = (eventLexemes before used).map Lexeme.reference := by
  induction h generalizing before with
  | @literal lexeme value hkind =>
    have hliteral : lexeme.kind ≠ .ident := by
      intro hident
      rw [hident] at hkind
      revert hkind
      decide
    rw [eventLexemes_cons, if_neg fun h => hliteral h.1]
    rfl
  | event htarget =>
    rw [eventLexemes_cons, if_pos ⟨htarget, hbefore⟩]
    rfl
  | @field target dot field htarget hdot hfield =>
    -- The field stands right behind the dot, so it is no event.
    rw [eventLexemes_cons, if_pos ⟨htarget, hbefore⟩, eventLexemes_cons,
      if_neg fun h => by simp [hdot] at h, eventLexemes_cons, if_neg fun h => h.2 hdot]
    rfl
  | @group opening closing inner own hopening hinner hclosing ih =>
    have hmark : closing.kind ≠ .ident := by simp [hclosing]
    rw [eventLexemes_cons, if_neg fun h => by simp [hopening] at h,
      eventLexemes_append_cons hmark, eventLexemes_nil, List.append_nil]
    exact ih (by simp [hopening])
  | @not mark inner own hmark hinner ih =>
    rw [eventLexemes_cons, if_neg fun h => by simp [hmark] at h]
    exact ih (by simp [hmark])
  | @binary op mark left right front back hleft hmark hright ihleft ihright =>
    have hdot : mark.kind ≠ .symbol .dot := by
      rw [hmark]
      cases op <;> decide
    rw [eventLexemes_append_cons (by simp [hmark]), List.map_append, ← ihleft hbefore,
      ← ihright hdot]
    rfl

/-! ## Transitions -/

/-- The lexemes of a transition with this condition: an arrow, a state, `when` and the condition. -/
structure Condition.Guards (condition : Condition) (arrow target guard : Lexeme)
    (own : List Lexeme) : Prop where
  arrow_kind : arrow.kind = .symbol .arrow
  target_kind : target.kind = .ident
  guard_kind : guard.kind = .keyword .whenKw
  written : condition.WrittenAs own

theorem Transition.WrittenAs.guards {transition : Transition} {condition : Condition}
    {used : List Lexeme} (h : transition.WrittenAs used)
    (hcondition : transition.condition = some condition) : ∃ arrow target guard own,
      used = arrow :: target :: guard :: own ∧ condition.Guards arrow target guard own := by
  obtain ⟨arrow, target, rest, rfl, harrow, htarget, -, hrest⟩ := h.parts
  rw [hcondition] at hrest
  cases hrest with
  | @some guard _ own hguard hwritten =>
    exact ⟨arrow, target, guard, own, rfl, harrow, htarget, hguard, hwritten⟩

/-! ## Documents -/

namespace Document

/-- The events that the condition of a transition reads are the identifiers without a dot before
them, from `when` to the end of the transition: each of them once, in the order of the text, with
its text and its span. -/
theorem accesses_in_source_order {source location : String} {document : Document}
    (h : parse source location = .ok document) {rule : Rule} (hrule : rule ∈ document.rules)
    {transition : Transition} (htransition : transition ∈ rule.transitions) {condition : Condition}
    (hcondition : transition.condition = some condition) :
    ∃ before arrow target guard own behind,
      Lexeme.ofText source = before ++ (arrow :: target :: guard :: own) ++ behind ∧
      transition.span.Covers (arrow :: target :: guard :: own) ∧
      condition.Guards arrow target guard own ∧
      condition.accesses = (eventLexemes guard own).map Lexeme.reference ∧
      (∀ access ∈ condition.accesses, access.span.start < access.span.stop) ∧
      condition.accesses.Pairwise fun access later => access.span.Before later.span := by
  have hread := readFrom_of_parse Parser.spells_importDeclaration Parser.writtenAs_transition h
  obtain ⟨used, ⟨before, behind, hlexemes⟩, hwritten⟩ :=
    hread.transitions rule hrule transition htransition
  obtain ⟨arrow, target, guard, own, rfl, hguards⟩ := hwritten.guards hcondition
  have hguard : guard.kind ≠ .symbol .dot := by simp [hguards.guard_kind]
  have haccesses := hguards.written.accesses_eq hguard
  refine ⟨before, arrow, target, guard, own, behind, hlexemes.symm, hwritten.covers,
    hguards, haccesses, ?_⟩
  have hown : own <:+: Lexeme.ofText source :=
    ⟨before ++ [arrow, target, guard], behind, by simpa using hlexemes⟩
  have htext := Lexeme.ordered_ofText source
  have hordered := htext.of_infix hown
  have hevents := eventLexemes_sublist guard own
  rw [haccesses, List.forall_mem_map, List.pairwise_map]
  exact ⟨fun lexeme hlexeme => hordered.nonempty lexeme (hevents.subset hlexeme),
    hordered.pairwise.sublist hevents⟩

/-- A text whose first transition has a condition with a group, a negation, a chain and fields. -/
def sampleGuard : String :=
  "on e \x7b -> s when !(a.b && c) || d == e.f -> t \x7d"

def sampleCondition : Condition :=
  .binary .or
    (.not (.binary .and
      (.access ⟨"a", ⟨⟨0, 19⟩, ⟨0, 20⟩⟩⟩ (some ⟨"b", ⟨⟨0, 21⟩, ⟨0, 22⟩⟩⟩))
      (.access ⟨"c", ⟨⟨0, 26⟩, ⟨0, 27⟩⟩⟩ none)))
    (.binary .eq
      (.access ⟨"d", ⟨⟨0, 32⟩, ⟨0, 33⟩⟩⟩ none)
      (.access ⟨"e", ⟨⟨0, 37⟩, ⟨0, 38⟩⟩⟩ (some ⟨"f", ⟨⟨0, 39⟩, ⟨0, 40⟩⟩⟩)))

def sampleTransition : Transition :=
  { state := ⟨"s", ⟨⟨0, 10⟩, ⟨0, 11⟩⟩⟩
    condition := some sampleCondition
    span := ⟨⟨0, 7⟩, ⟨0, 40⟩⟩ }

def sampleGuardRule : Rule :=
  { event := ⟨"e", ⟨⟨0, 3⟩, ⟨0, 4⟩⟩⟩
    transitions := [sampleTransition,
      { state := ⟨"t", ⟨⟨0, 44⟩, ⟨0, 45⟩⟩⟩, condition := none, span := ⟨⟨0, 41⟩, ⟨0, 45⟩⟩ }]
    span := ⟨⟨0, 0⟩, ⟨0, 47⟩⟩ }

theorem accesses_in_source_order_sampleGuard :
    parse sampleGuard "a" = .ok (.execution { rules := [sampleGuardRule], location := "a" }) ∧
    sampleCondition.accesses.map (·.text) = ["a", "c", "d", "e"] ∧
    ∃ before arrow target guard own behind,
      Lexeme.ofText sampleGuard = before ++ (arrow :: target :: guard :: own) ++ behind ∧
      sampleTransition.span.Covers (arrow :: target :: guard :: own) ∧
      sampleCondition.Guards arrow target guard own ∧
      sampleCondition.accesses = (eventLexemes guard own).map Lexeme.reference ∧
      (∀ access ∈ sampleCondition.accesses, access.span.start < access.span.stop) ∧
      sampleCondition.accesses.Pairwise fun access later => access.span.Before later.span := by
  have h : parse sampleGuard "a" =
      .ok (.execution { rules := [sampleGuardRule], location := "a" }) := by
    decide +kernel
  have hrule : sampleGuardRule ∈ [sampleGuardRule] := List.mem_singleton_self _
  have htransition : sampleTransition ∈ sampleGuardRule.transitions := List.mem_cons_self
  exact ⟨h, rfl, accesses_in_source_order h hrule htransition rfl⟩

end Document

end CrossModel
