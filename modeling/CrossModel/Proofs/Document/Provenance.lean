import CrossModel.Proofs.Document.Spans

/-!
# Where imports and transitions are read from

Whatever the readers of imports and of transitions are known to give holds in every document: its
imports are read from its first lexemes, one behind the other, and each of its transitions from a
stretch of its lexemes. The relations between values and lexemes are parameters here, so that any
further fact about one of the two readers becomes a fact about documents.
-/

namespace CrossModel

/-- What the imports and the transitions of a document are read from. -/
structure Document.ReadFrom (ofImport : ImportDeclaration → List Lexeme → Prop)
    (ofTransition : Transition → List Lexeme → Prop) (document : Document)
    (used : List Lexeme) : Prop where
  imports : ∃ front body, used = front ++ body ∧ Row ofImport document.imports front
  transitions : ∀ rule ∈ document.rules, ∀ transition ∈ rule.transitions,
    Stands (ofTransition transition) used

namespace Parser

section Transitions

variable {ofTransition : Transition → List Lexeme → Prop}

theorem spells_rule_of (h : Spells Parser.transition ofTransition) :
    Spells Parser.rule fun rule used =>
      ∀ transition ∈ rule.transitions, Stands (ofTransition transition) used := by
  refine h.rule.imp fun rule used hrule transition htransition => ?_
  obtain ⟨-, opening, event, brace, transitions, closing, rfl, -, -, -, hrow, -⟩ := hrule
  exact ((hrow.stands transition htransition).front.behind brace).back.behind opening

theorem spells_executionMember_of (h : Spells Parser.transition ofTransition) :
    Spells Parser.executionMember fun member used => ∀ rule, member.rule? = some rule →
      ∀ transition ∈ rule.transitions, Stands (ofTransition transition) used := by
  refine Spells.next?_bind fun next => ?_
  split
  · refine (spells_keyword .useKw).bind fun _ _ _ => ?_
    refine (spells_keyword .providerKw).bind fun _ _ _ => ?_
    exact spells_qualified.bind_pure fun _ _ _ => ⟨_, rfl, nofun⟩
  · refine (spells_keyword .stateKw).bind fun _ _ _ => ?_
    exact spells_name.bind_pure fun _ _ _ => ⟨_, rfl, nofun⟩
  · refine (spells_rule_of h).bind_pure fun rule used hrule => ⟨_, rfl, ?_⟩
    rintro _ ⟨⟩
    exact hrule
  · exact spells_reject _

theorem spells_execution_of (h : Spells Parser.transition ofTransition)
    (imports : List ImportDeclaration) :
    Spells (Parser.execution imports) fun model used => ∀ rule ∈ model.rules,
      ∀ transition ∈ rule.transitions, Stands (ofTransition transition) used := by
  refine ((spells_executionMember_of h).repeatWhile _).bind_pure fun members used hmembers =>
    ⟨_, rfl, fun rule hrule transition htransition => ?_⟩
  have hrules := hmembers.stands_filterMap fun member own hown rule hselect =>
    Stands.self (hown rule hselect)
  exact ((hrules rule hrule).imp fun _ hown => hown transition htransition).flat

/-- Platforms and libraries have no rules. -/
theorem spells_contents_of (h : Spells Parser.transition ofTransition)
    (imports : List ImportDeclaration) :
    Spells (contents imports) fun document used => ∀ rule ∈ document.rules,
      ∀ transition ∈ rule.transitions, Stands (ofTransition transition) used := by
  refine Spells.next?_bind fun next => ?_
  split
  · exact (spells_platform imports).bind_pure fun _ _ _ => ⟨_, rfl, nofun⟩
  · exact (spells_platform imports).bind_pure fun _ _ _ => ⟨_, rfl, nofun⟩
  · exact (spells_library imports).bind_pure fun _ _ _ => ⟨_, rfl, nofun⟩
  · exact (spells_execution_of h imports).bind_pure fun _ _ hmodel => ⟨_, rfl, hmodel⟩

end Transitions

theorem spells_imports_contents_of {ofImport : ImportDeclaration → List Lexeme → Prop}
    {ofTransition : Transition → List Lexeme → Prop} (himport : Spells importDeclaration ofImport)
    (htransition : Spells Parser.transition ofTransition) :
    Spells (repeatWhile (· = some (.keyword .importKw)) importDeclaration >>= contents)
      (Document.ReadFrom ofImport ofTransition) := by
  refine (himport.repeatWhile _).bind fun imports front hfront => ?_
  refine ((spells_contents imports).and (spells_contents_of htransition imports)).imp ?_
  rintro document body ⟨⟨rfl, -⟩, htransitions⟩
  refine ⟨⟨front, body, rfl, hfront⟩, fun rule hrule transition hmem => ?_⟩
  exact (htransitions rule hrule transition hmem).back

end Parser

/-- The imports and transitions of a document are what their readers give on its lexemes. -/
theorem Document.readFrom_of_parse {ofImport : ImportDeclaration → List Lexeme → Prop}
    {ofTransition : Transition → List Lexeme → Prop}
    (himport : Parser.Spells Parser.importDeclaration ofImport)
    (htransition : Parser.Spells Parser.transition ofTransition)
    {source location : String} {document : Document}
    (h : Document.parse source location = .ok document) :
    document.ReadFrom ofImport ofTransition (Lexeme.ofText source) := by
  have hspells := Parser.spells_imports_contents_of himport htransition
  obtain ⟨content, rfl, himports, htransitions⟩ := exists_content_of_parse hspells h
  cases content <;> exact ⟨himports, htransitions⟩

end CrossModel
