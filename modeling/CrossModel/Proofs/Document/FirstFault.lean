import CrossModel.Proofs.Document.Acceptance
import CrossModel.Proofs.Document.Stopping

/-!
# Errors point at the first impossible token

One lemma for each reader says where it stops. A text that is no document is therefore rejected at
the first token with which no document can go on: the tokens before it begin a document, and no
document begins with these and the token itself. If there is no such token, the text ends too early.
-/

namespace CrossModel

open Grammar
open scoped Computability

namespace Parser

variable {α : Type}

/-! ## Names, lists and braces -/

theorem stops_name : Stops name ident :=
  (stops_expect Token.lexes_ident).map _

theorem stops_qualified : Stops Parser.qualified Grammar.qualified :=
  ((stops_expect Token.lexes_ident).separated .dot).spanned.bind_pure fun _ => ⟨_, rfl⟩

theorem stops_quotedText : Stops quotedText string :=
  (stops_expect Token.lexes_string).map _

theorem stops_parameters : Stops Parser.parameters (opt Grammar.parameters) := by
  have hnames := (stops_name.listed .closeParen).after? (.symbol .openParen) nofun
  rw [Grammar.parameters, mul_assoc]
  exact hnames.map _

theorem Stops.braced {body : Parser (List α)} {form : Form} (h : Stops body form) :
    Stops (Parser.braced body) (opt (inBraces form)) := by
  have hbody := h.closed .closeBrace id
  rw [inBraces, mul_assoc]
  exact (hbody.after? (.symbol .openBrace) (by decide)).map _

theorem Stops.untilBrace {item : Parser α} {form : Form} {starts : List TokenKind}
    (h : Stops item form) (hstarts : Starts form starts) :
    Stops (Parser.untilBrace item) form∗ :=
  h.repeatWhile hstarts _

/-! ## Imports -/

theorem stops_importKind : Stops importKind (kw .platformKw + kw .libraryKw) := by
  have hlibrary : Spellable (kw .libraryKw) := (stops_keyword .libraryKw).spellable
  have h : Stops importKind
      (kw .platformKw * 1 + (kw .libraryKw * 1 + kw .libraryKw)) := by
    apply Stops.accept?_bind (.keyword .platformKw) nofun
    · intro _
      exact stops_pure _
    · apply Stops.accept?_bind (.keyword .libraryKw) nofun
      · intro _
        exact stops_pure _
      · exact stops_reject hlibrary _
  rwa [mul_one, mul_one, add_idem] at h

theorem stops_aliasName : Stops aliasName (ident + string) := by
  rw [add_comm]
  exact stops_quotedText.next?_ite (stops_name.map _)

theorem stops_importDeclaration : Stops importDeclaration importForm := by
  have halias := stops_aliasName.after? (.keyword .asKw) nofun
  have h := (stops_keyword .importKw).bind fun _ => stops_importKind.bind fun kind =>
    stops_quotedText.bind fun path => halias.map fun aliasName => (kind, path, aliasName)
  rw [← mul_assoc, ← mul_assoc] at h
  exact h.spanned.bind_pure fun _ => ⟨_, rfl⟩

/-! ## Platforms and libraries -/

theorem stops_event : Stops Parser.event Grammar.event := by
  rw [Grammar.event, mul_assoc]
  exact (stops_keyword .eventKw).bind fun _ => stops_name.bind fun _ => stops_parameters.map _

theorem stops_provider : Stops Parser.provider Grammar.provider := by
  have hbody := (stops_event.untilBrace starts_event).braced
  rw [Grammar.provider, mul_assoc]
  exact (stops_keyword .providerKw).bind fun _ => stops_name.bind fun _ => hbody.map _

theorem stops_platform (imports : List ImportDeclaration) :
    Stops (Parser.platform imports) Grammar.platform := by
  have hbody := (stops_provider.untilBrace starts_provider).braced
  have hbase := stops_qualified.after? (.keyword .extendsKw) nofun
  have habstract := stops_accept? (.keyword .abstractKw) nofun
  rw [Grammar.platform, mul_assoc, mul_assoc, mul_assoc]
  exact habstract.bind fun _ => (stops_keyword .platformKw).bind fun _ =>
    stops_name.bind fun _ => hbase.bind fun _ => hbody.map _

theorem stops_samplePhrases : Stops Parser.samplePhrases (opt Grammar.samplePhrases) := by
  have hbody := (stops_symbol .openBrace).bind fun _ => stops_quotedText.listed .closeBrace
  rw [Grammar.samplePhrases, inBraces, mul_assoc]
  exact (hbody.after? (.keyword .inputsKw) (by decide)).map _

theorem stops_intent : Stops Parser.intent Grammar.intent := by
  have hbody := stops_samplePhrases.braced
  have hfollows := stops_qualified.after? (.keyword .followsKw) nofun
  rw [Grammar.intent, mul_assoc, mul_assoc, mul_assoc]
  exact (stops_keyword .intentKw).bind fun _ => stops_name.bind fun _ =>
    hfollows.bind fun _ => stops_parameters.bind fun _ => hbody.map _

theorem stops_libraryMember : Stops libraryMember (Grammar.event + Grammar.intent) := by
  rw [add_comm]
  exact stops_intent.next?_ite stops_event

theorem stops_library (imports : List ImportDeclaration) :
    Stops (Parser.library imports) Grammar.library := by
  have hstarts : Starts (Grammar.event + Grammar.intent) [.keyword .eventKw, .keyword .intentKw] :=
    (starts_event.mono (by decide)).add (starts_intent.mono (by decide))
  have hbody := (stops_libraryMember.repeatWhile hstarts startsLibraryMember).braced
  rw [Grammar.library, mul_assoc]
  exact (stops_keyword .libraryKw).bind fun _ => stops_name.bind fun _ => hbody.map _

/-! ## Conditions -/

theorem spellable_integer : Spellable Grammar.integer :=
  ⟨[(.integer, "0")], ⟨"0", rfl, by decide⟩, List.forall_mem_singleton.2 Token.lexes_integer⟩

theorem integer_self {lexeme : Lexeme} (h : lexeme.kind = .integer) (rest : List Lexeme)
    (passed finish : Position) :
    Parser.integer ⟨lexeme :: rest, passed, finish⟩ =
      if decimal lexeme.text.toList ≤ integerLimit then
        .ok (decimal lexeme.text.toList, ⟨rest, lexeme.span.stop, finish⟩)
      else .error ⟨.integerOutOfRange lexeme.text, lexeme.span⟩ := by
  have hlexeme := expect_self h rest passed finish
  split
  · next hvalue =>
    refine bind_eq_ok_iff.2 ⟨lexeme, _, hlexeme, ?_⟩
    rw [if_pos hvalue]
    rfl
  · next hvalue =>
    refine bind_eq_error_iff.2 (.inr ⟨lexeme, _, hlexeme, ?_⟩)
    rw [if_neg hvalue]
    rfl

/-- An integer that is too large is not consumed: no document goes on with it. -/
theorem stops_integer : Stops Parser.integer Grammar.integer where
  spellable := spellable_integer
  stopsAt cursor := by
    by_cases hnext : cursor.next? = some .integer
    · obtain ⟨lexeme, rest, hrest, hkind⟩ := Cursor.rest_eq_cons_of_next? hnext
      obtain ⟨lexemes, passed, finish⟩ := cursor
      subst hrest
      have hread (others : List Lexeme) := integer_self hkind others passed finish
      by_cases hvalue : decimal lexeme.text.toList ≤ integerLimit
      · simp only [hvalue, if_true] at hread
        refine ⟨?_, by rw [hread]; nofun⟩
        intro value ahead hok
        cases (hread rest).symm.trans hok
        have hphrase : Phrase Grammar.integer [lexeme] := by
          refine ⟨by simp [hkind], lexeme.text, ?_, hvalue⟩
          rw [← hkind]
          rfl
        exact ⟨[lexeme], rfl, rfl, hphrase, fun other _ => hread other⟩
      · simp only [hvalue, if_false] at hread
        refine ⟨by rw [hread]; nofun, ?_⟩
        intro error herror
        cases (hread rest).symm.trans herror
        refine ⟨[], lexeme :: rest, rfl, ⟨rfl, rfl, by simp [hkind]⟩, begins_nil spellable_integer,
          ?_⟩
        intro other hother
        obtain ⟨others, rfl⟩ := List.head?_eq_some_iff.1 hother
        exact hread others
    · apply (stopsAt_reject spellable_integer (.token .integer) cursor).of_eq
      intro rest hrest
      rw [← Cursor.next?_before hrest] at hnext
      exact bind_eq_error_iff.2 (.inl (expect_other hnext))

theorem stops_accessed : Stops accessed (ident * opt (sym .dot * ident)) :=
  stops_name.bind fun _ => (stops_name.after? (.symbol .dot) nofun).map _

/-- Too deep a condition is an error of the mark that opens it. -/
theorem stopsAt_descend_none {kind : TokenKind} {cursor : Cursor} {form : Form}
    (hnext : cursor.next? = some kind) (hkind : kind ≠ .invalid) (h : Spellable form)
    (inner : Deeper → Parser Condition) : StopsAt (descend none inner) form cursor := by
  obtain ⟨lexeme, rest, hrest, rfl⟩ := Cursor.rest_eq_cons_of_next? hnext
  refine ⟨nofun, ?_⟩
  intro error hread
  cases hread
  refine ⟨[], cursor.rest, rfl, ?_, begins_nil h, ?_⟩
  · rw [hrest]
    refine ⟨rfl, rfl, fun text => ?_⟩
    simp [hkind]
  · intro other hother
    simp [descend, hother, Cursor.before]

theorem spellable_atom (group : Form) : Spellable (Grammar.atom group) :=
  (stops_keyword .trueKw).spellable.mono fun _ hphrase => mem_atom.2 (.inl hphrase)

theorem stops_atom {deeper : Option Deeper} {group : Form}
    (hgroup : ∀ cursor : Cursor, cursor.next? = some (.symbol .openParen) →
      StopsAt (descend deeper fun readers => do
        symbol .openParen
        let inner ← readers.disjunction
        symbol .closeParen
        return inner) (Grammar.atom group) cursor) :
    Stops (Parser.atom deeper) (Grammar.atom group) where
  spellable := spellable_atom group
  stopsAt cursor := by
    apply StopsAt.next?_bind
    split
    · refine (((stops_keyword .trueKw).map _).stopsAt cursor).mono fun phrase hphrase => ?_
      exact mem_atom.2 (.inl hphrase)
    · refine (((stops_keyword .falseKw).map _).stopsAt cursor).mono fun phrase hphrase => ?_
      exact mem_atom.2 (.inr (.inl hphrase))
    · refine ((stops_quotedText.map _).stopsAt cursor).mono fun phrase hphrase => ?_
      exact mem_atom.2 (.inr (.inr (.inl hphrase)))
    · refine ((stops_integer.map _).stopsAt cursor).mono fun phrase hphrase => ?_
      exact mem_atom.2 (.inr (.inr (.inr (.inl hphrase))))
    · next hnext => exact hgroup cursor hnext
    · refine (stops_accessed.stopsAt cursor).mono fun phrase hphrase => ?_
      exact mem_atom.2 (.inr (.inr (.inr (.inr (.inr hphrase)))))
    · exact stopsAt_reject (spellable_atom group) _ cursor

theorem eq_symbol_of_comparison? {kind : TokenKind} {op : Operator}
    (h : comparison? kind = some op) : ∃ mark, kind = .symbol mark := by
  cases kind with
  | symbol mark => exact ⟨mark, rfl⟩
  | _ => cases h

theorem stops_comparison {deeper : Option Deeper} {group : Form}
    (hatom : Stops (Parser.atom deeper) (Grammar.atom group)) :
    Stops (Parser.comparison deeper) (Grammar.comparison group) := by
  rw [Grammar.comparison]
  apply hatom.bind
  intro left
  refine ⟨spellable_of_nil_mem (Or.inl rfl), fun cursor => ?_⟩
  apply StopsAt.next?_bind
  split
  · exact ((stops_pure left).stopsAt cursor).mono fun _ => Or.inl
  · next kind hnext =>
    split
    · exact ((stops_pure left).stopsAt cursor).mono fun _ => Or.inl
    · next op hop =>
      obtain ⟨mark, rfl⟩ := eq_symbol_of_comparison? hop
      have hmem : .symbol mark ∈ comparators := by
        by_contra hmem
        cases (comparison?_eq_none hmem).symm.trans hop
      have hoperand := (stops_symbol mark).bind fun _ => hatom.map (Condition.binary op left)
      refine (hoperand.stopsAt cursor).mono fun phrase hphrase => ?_
      obtain ⟨a, ha, b, hb, rfl⟩ := Language.mem_mul.1 hphrase
      exact Or.inr (Language.append_mem_mul (mem_comparator.2 ⟨_, hmem, ha⟩) hb)

theorem Stops.chain {operand : Parser Condition} {form : Form} (h : Stops operand form)
    (mark : Symbol) (op : Operator) :
    Stops (Parser.chain mark op operand) (separatedBy mark form) :=
  (h.separated mark).bind_pure fun _ => ⟨_, rfl⟩

theorem Stops.disjunction {deeper : Option Deeper} {form : Form}
    (h : Stops (Parser.unary deeper) form) :
    Stops (Parser.disjunction deeper) (Grammar.disjunction form) :=
  (h.chain .both .and).chain .either .or

theorem stops_unary (depth : Nat) : Stops (Parser.unary (deeper depth)) (Grammar.unary depth) := by
  induction depth with
  | zero =>
    have hatom : Stops (Parser.atom none) (Grammar.atom 0) := by
      apply stops_atom
      intro cursor hnext
      exact stopsAt_descend_none hnext nofun (spellable_atom 0) _
    have hcomparison := stops_comparison hatom
    refine ⟨hcomparison.spellable, fun cursor => ?_⟩
    apply StopsAt.next?_bind
    split
    · next hnext => exact stopsAt_descend_none hnext nofun hcomparison.spellable _
    · exact hcomparison.stopsAt cursor
  | succ depth ih =>
    have hgroup := (stops_symbol .openParen).bind fun _ => ih.disjunction.closed .closeParen id
    rw [← mul_assoc] at hgroup
    have hatom : Stops (Parser.atom (deeper (depth + 1))) (Grammar.atom
        (sym .openParen * Grammar.disjunction (Grammar.unary depth) * sym .closeParen)) := by
      apply stops_atom
      intro cursor hnext
      refine (hgroup.stopsAt cursor).mono fun phrase hphrase => ?_
      exact mem_atom.2 (.inr (.inr (.inr (.inr (.inl hphrase)))))
    have hnegation := (stops_symbol .bang).bind fun _ => ih.map Condition.not
    exact hnegation.next?_ite (stops_comparison hatom)

theorem stops_condition : Stops Parser.condition Grammar.condition :=
  (stops_unary nestingLimit).disjunction

/-! ## Execution models and documents -/

theorem stops_transition : Stops Parser.transition Grammar.transition := by
  have hcondition := stops_condition.after? (.keyword .whenKw) nofun
  have h := (stops_symbol .arrow).bind fun _ => stops_name.bind fun target =>
    hcondition.map fun condition => (target, condition)
  rw [← mul_assoc] at h
  exact h.spanned.bind_pure fun _ => ⟨_, rfl⟩

theorem stops_rule :
    Stops rule (kw .onKw * Grammar.qualified * inBraces Grammar.transition∗) := by
  have htransitions :=
    stops_transition.repeatWhile starts_transition (· = some (.symbol .arrow))
  have h := (stops_keyword .onKw).bind fun _ => stops_qualified.bind fun event =>
    (stops_symbol .openBrace).bind fun _ =>
      htransitions.closed .closeBrace fun transitions => (event, transitions)
  rw [← mul_assoc, ← mul_assoc (sym .openBrace)] at h
  exact h.spanned.bind_pure fun _ => ⟨_, rfl⟩

theorem stops_executionMember : Stops Parser.executionMember Grammar.executionMember := by
  have hprovider := (stops_keyword .useKw).bind fun _ => (stops_keyword .providerKw).bind fun _ =>
    stops_qualified.map ExecutionMember.provider
  have hstate := (stops_keyword .stateKw).bind fun _ => stops_name.map ExecutionMember.state
  have hrule := stops_rule.map ExecutionMember.rule
  have hspellable : Spellable Grammar.executionMember :=
    hrule.spellable.mono fun _ => Or.inr
  refine ⟨hspellable, fun cursor => ?_⟩
  rw [← mul_assoc] at hprovider
  apply StopsAt.next?_bind
  split
  · exact (hprovider.stopsAt cursor).mono fun _ hphrase => Or.inl (Or.inl hphrase)
  · exact (hstate.stopsAt cursor).mono fun _ hphrase => Or.inl (Or.inr hphrase)
  · exact (hrule.stopsAt cursor).mono fun _ => Or.inr
  · exact stopsAt_reject hspellable _ cursor

theorem stops_execution (imports : List ImportDeclaration) :
    Stops (execution imports) Grammar.executionMember∗ :=
  (stops_executionMember.repeatWhile starts_executionMember _).map _

theorem stops_contents (imports : List ImportDeclaration) :
    Stops (contents imports) (Grammar.platform + Grammar.library + Grammar.executionMember∗) := by
  have hplatform := (stops_platform imports).map Document.platform
  have hlibrary := (stops_library imports).map Document.library
  have hexecution := (stops_execution imports).map Document.execution
  refine ⟨hexecution.spellable.mono fun _ => Or.inr, fun cursor => ?_⟩
  apply StopsAt.next?_bind
  split
  · exact (hplatform.stopsAt cursor).mono fun _ hphrase => Or.inl (Or.inl hphrase)
  · exact (hplatform.stopsAt cursor).mono fun _ hphrase => Or.inl (Or.inl hphrase)
  · exact (hlibrary.stopsAt cursor).mono fun _ hphrase => Or.inl (Or.inr hphrase)
  · exact (hexecution.stopsAt cursor).mono fun _ => Or.inr

theorem stops_documentEnd : Stops documentEnd 1 := by
  refine ⟨(stops_pure ()).spellable, fun cursor => ?_⟩
  apply StopsAt.next?_bind
  split
  · exact stopsAt_reject (stops_pure ()).spellable _ cursor
  · exact (stops_pure ()).stopsAt cursor

theorem stops_document : Stops Parser.document Grammar.document := by
  have himports := stops_importDeclaration.repeatWhile starts_importForm
    (· = some (.keyword .importKw))
  have h := himports.bind fun imports => (stops_contents imports).bind fun document =>
    stops_documentEnd.map fun _ => document
  rwa [mul_one] at h

end Parser

namespace Document

/-! ## Documents that can be written -/

/-- The words are those of a text that is a document. -/
def Accepted (phrase : List Word) : Prop :=
  ∃ source location, (parse source location).isOk = true ∧
    (Token.significant source).map Token.word = phrase

theorem Accepted.mem_document {phrase : List Word} (h : Accepted phrase) :
    phrase ∈ Grammar.document := by
  obtain ⟨source, location, hok, rfl⟩ := h
  rw [parse, isOk_map, isOk_ofLexemes_iff] at hok
  rw [← map_word_ofText]
  exact hok.2

/-- A phrase of the grammar that consists of lexemes can be written down. -/
theorem accepted_of_mem_document {phrase : List Word} (hmem : phrase ∈ Grammar.document)
    (hspelled : Spelled phrase) (hnonempty : phrase ≠ []) : Accepted phrase := by
  obtain ⟨source, hsource⟩ := Token.exists_laidOut (phrase.map Prod.snd)
  have hwords : (Token.significant source).map Token.word = phrase :=
    Token.words_of_laidOut hspelled hsource
  have hlexemes : (Cursor.ofText source).rest.map Lexeme.word = phrase :=
    (map_word_ofText source).trans hwords
  refine ⟨source, "", ?_, hwords⟩
  rw [parse, isOk_map, isOk_ofLexemes_iff, hlexemes]
  refine ⟨?_, hmem⟩
  intro hempty
  rw [hempty] at hlexemes
  exact hnonempty hlexemes.symm

theorem exists_accepted : ∃ phrase, Accepted phrase :=
  ⟨_, "state name", "", by decide +kernel, rfl⟩

theorem lexes_of_mem_ofText {source : String} {lexeme : Lexeme}
    (h : lexeme ∈ Lexeme.ofText source) (hvalid : lexeme.kind ≠ .invalid) :
    Token.Lexes lexeme.kind lexeme.text.toList := by
  obtain ⟨token, htoken, rfl⟩ := List.mem_map.1 h
  exact Token.lexes_of_mem_significant htoken hvalid

/-- Lexemes of a text that begin a phrase of the grammar begin a document. -/
theorem exists_accepted_append {source : String} {used rest : List Lexeme}
    (hused : Lexeme.ofText source = used ++ rest) (h : Begins Grammar.document used) :
    ∃ missing, Accepted (used.map Lexeme.word ++ missing) := by
  obtain ⟨hvalid, missing, hmissing, hmem⟩ := h
  have hspelled : Spelled (used.map Lexeme.word) := by
    rw [Spelled, List.forall_mem_map]
    intro lexeme hlexeme
    have hsource : lexeme ∈ Lexeme.ofText source := hused ▸ List.mem_append_left rest hlexeme
    exact lexes_of_mem_ofText hsource (hvalid lexeme hlexeme)
  by_cases hempty : used.map Lexeme.word ++ missing = []
  · obtain ⟨phrase, hphrase⟩ := exists_accepted
    rw [(List.append_eq_nil_iff.1 hempty).1]
    exact ⟨phrase, hphrase⟩
  · exact ⟨missing, accepted_of_mem_document hmem (hspelled.append hmissing) hempty⟩

/-- The parser sees nothing behind the lexeme at which it fails, so no document goes on with it. -/
theorem not_accepted_of_fails {cursor : Cursor} {used : List Lexeme} {lexeme : Lexeme}
    {error : ParseError}
    (h : ∀ other, other.head? = some lexeme →
      Parser.document (cursor.before (used ++ other)) = .error error)
    (further : List Word) : ¬Accepted (used.map Lexeme.word ++ lexeme.word :: further) := by
  intro haccepted
  let other : List Lexeme := lexeme :: further.map fun word => ⟨word.1, word.2, .zero⟩
  have hwords : (used ++ other).map Lexeme.word =
      used.map Lexeme.word ++ lexeme.word :: further := by
    simp [other, Lexeme.word, Function.comp_def]
  have hok : (Parser.document (cursor.before (used ++ other))).isOk = true := by
    rw [Parser.isOk_document_iff]
    exact hwords ▸ haccepted.mem_document
  rw [h other rfl] at hok
  cases hok

/-! ## The first fault -/

/-- The text ends where a document still goes on. -/
structure FailsAtEnd (source : String) (error : ParseError) : Prop where
  span_eq : error.span = .point ((LineIndex.ofText source).position source.utf8ByteSize)
  incomplete : ∃ missing, missing ≠ [] ∧
    Accepted ((Token.significant source).map Token.word ++ missing)

/-- The token is the first one with which no document goes on. -/
structure FailsAt (source : String) (error : ParseError) (before : List Token) (token : Token) :
    Prop where
  span_eq : error.span = (LineIndex.ofText source).span token.start token.stop
  viable : ∃ missing, Accepted (before.map Token.word ++ missing)
  impossible : ∀ further, ¬Accepted (before.map Token.word ++ token.word :: further)
  invalid_iff : ∀ text,
    error.fault = .invalidToken text ↔ token.kind = .invalid ∧ text = token.text

/-- The error shows the first token that is impossible, or that there is none. -/
def FirstFault (source : String) (error : ParseError) : Prop :=
  match error.fault with
  | .emptyDocument => False
  | .unexpectedEnd _ => FailsAtEnd source error
  | _ => ∃ before token after, Token.significant source = before ++ token :: after ∧
      FailsAt source error before token

theorem isEmpty_rest_ofText (source : String) :
    (Cursor.ofText source).rest.isEmpty = true ↔ Token.significant source = [] := by
  rw [List.isEmpty_iff]
  exact List.map_eq_nil_iff

theorem parse_of_significant_eq_nil {source : String} (h : Token.significant source = [])
    (location : String) : parse source location = .error ⟨.emptyDocument, .zero⟩ := by
  rw [parse, ofLexemes, if_pos ((isEmpty_rest_ofText source).2 h)]
  rfl

theorem document_of_parse_eq_error {source location : String} {error : ParseError}
    (h : parse source location = .error error) (hsource : Token.significant source ≠ []) :
    Parser.document (Cursor.ofText source) = .error error := by
  have hrest : ¬(Cursor.ofText source).rest.isEmpty = true :=
    fun hempty => hsource ((isEmpty_rest_ofText source).1 hempty)
  rw [parse, ofLexemes, if_neg hrest] at h
  change ((Parser.document (Cursor.ofText source)).map _).map _ = _ at h
  cases hread : Parser.document (Cursor.ofText source) with
  | error error =>
    rw [hread] at h
    cases h
    rfl
  | ok result =>
    rw [hread] at h
    cases h

theorem failsAtEnd_of_document {source : String} {error : ParseError}
    (hread : Parser.document (Cursor.ofText source) = .error error)
    (hpoints : error.PointsAt (Cursor.ofText source).finish [])
    (hbegins : Begins Grammar.document (Lexeme.ofText source)) : FailsAtEnd source error := by
  refine ⟨hpoints.2, ?_⟩
  obtain ⟨missing, hmissing⟩ := exists_accepted_append (List.append_nil _).symm hbegins
  rw [map_word_ofText] at hmissing
  refine ⟨missing, ?_, hmissing⟩
  rintro rfl
  have hmem : (Cursor.ofText source).rest.map Lexeme.word ∈ Grammar.document := by
    rw [List.append_nil, ← map_word_ofText] at hmissing
    exact hmissing.mem_document
  have hok := (Parser.isOk_document_iff (Cursor.ofText source)).2 hmem
  rw [hread] at hok
  cases hok

theorem failsAt_of_document {source : String} {error : ParseError} {used rest : List Lexeme}
    {lexeme : Lexeme} (hused : Lexeme.ofText source = used ++ lexeme :: rest)
    (hpoints : error.PointsAt (Cursor.ofText source).finish (lexeme :: rest))
    (hbegins : Begins Grammar.document used)
    (hsame : ∀ other, other.head? = some lexeme →
      Parser.document ((Cursor.ofText source).before (used ++ other)) = .error error) :
    ∃ before token after, Token.significant source = before ++ token :: after ∧
      FailsAt source error before token := by
  obtain ⟨missing, hviable⟩ := exists_accepted_append hused hbegins
  have himpossible := not_accepted_of_fails hsame
  obtain ⟨-, hspan, hinvalid⟩ := hpoints
  obtain ⟨before, behind, hsplit, rfl, hbehind⟩ := List.map_eq_append_iff.1 hused
  obtain ⟨token, after, rfl, rfl, -⟩ := List.map_eq_cons_iff.1 hbehind
  rw [List.map_map] at hviable
  simp only [List.map_map] at himpossible
  exact ⟨before, token, after, hsplit, hspan, ⟨missing, hviable⟩, himpossible, hinvalid⟩

theorem firstFault_of_document {source : String} {error : ParseError}
    (hread : Parser.document (Cursor.ofText source) = .error error) : FirstFault source error := by
  obtain ⟨used, rest, hused, hpoints, hbegins, hsame⟩ :=
    (Parser.stops_document.stopsAt _).fails hread
  replace hused : Lexeme.ofText source = used ++ rest := hused
  cases rest with
  | nil =>
    rw [List.append_nil] at hused
    subst hused
    have hfails := failsAtEnd_of_document hread hpoints hbegins
    obtain ⟨⟨expected, hfault⟩, -⟩ := hpoints
    rw [FirstFault, hfault]
    exact hfails
  | cons lexeme rest =>
    have hfails := failsAt_of_document hused hpoints hbegins hsame
    have htoken : error.fault.isOfToken = true := hpoints.1
    unfold FirstFault
    split
    · next hfault =>
      rw [hfault] at htoken
      cases htoken
    · next hfault =>
      rw [hfault] at htoken
      cases htoken
    · exact hfails

/-- A text is rejected at the first token with which no document goes on, or at its end if it only
begins a document. It counts as empty exactly if it has no tokens besides comments. -/
theorem parse_eq_error_firstFault (source location : String) :
    ((∃ span, parse source location = .error ⟨.emptyDocument, span⟩) ↔
        Token.significant source = []) ∧
      ∀ error, parse source location = .error error → Token.significant source ≠ [] →
        FirstFault source error := by
  constructor
  · constructor
    · rintro ⟨span, hparse⟩
      by_contra hsource
      exact firstFault_of_document (document_of_parse_eq_error hparse hsource)
    · intro hsource
      exact ⟨.zero, parse_of_significant_eq_nil hsource location⟩
  · intro error hparse hsource
    exact firstFault_of_document (document_of_parse_eq_error hparse hsource)

/-- A state without a name, at the end of the text and before another token. -/
theorem parse_eq_error_firstFault_state :
    FirstFault "state" ⟨.unexpectedEnd (.token .ident), .point ⟨0, 5⟩⟩ ∧
      FirstFault "state on"
        ⟨.unexpectedToken (.token .ident) (.keyword .onKw), ⟨⟨0, 6⟩, ⟨0, 8⟩⟩⟩ := by
  have hstate : Token.significant "state" ≠ [] := by
    decide +kernel
  have hstateOn : Token.significant "state on" ≠ [] := by
    decide +kernel
  constructor
  · exact (parse_eq_error_firstFault "state" "here").2 _ (by decide +kernel) hstate
  · exact (parse_eq_error_firstFault "state on" "here").2 _ (by decide +kernel) hstateOn

end Document

end CrossModel
