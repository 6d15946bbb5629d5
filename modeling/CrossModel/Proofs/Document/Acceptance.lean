import CrossModel.Proofs.Document.Reading

/-!
# The parser accepts the documents of the grammar

One lemma for each reader says which form it reads, and with which lexemes it would go on behind a
phrase. The main result is that a text is a document exactly if its tokens form one.
-/

namespace CrossModel

open Grammar
open scoped Computability

theorem isOk_iff {ε α : Type} {result : Except ε α} :
    result.isOk = true ↔ ∃ value, result = .ok value := by
  cases result <;> simp [Except.isOk, Except.toBool]

theorem isOk_map {ε α β : Type} (change : α → β) (result : Except ε α) :
    (result.map change).isOk = result.isOk := by
  cases result <;> rfl

namespace Parser

variable {α : Type}

/-! ## Names, lists and braces -/

theorem reads_name : Reads name ident (oneOf []) :=
  (reads_expect .ident).map _

theorem reads_qualified : Reads Parser.qualified Grammar.qualified (oneOf [.symbol .dot]) := by
  have h := (reads_expect .ident).separated .dot (by decide)
  exact h.spanned.bind_pure fun _ => ⟨_, rfl⟩

theorem reads_quotedText : Reads quotedText string (oneOf []) :=
  (reads_expect .string).map _

theorem reads_parameters :
    Reads Parser.parameters (opt Grammar.parameters) (oneOf [.symbol .openParen]) := by
  have hnames := reads_name.listed .closeParen (by decide) (by decide)
    (starts_word .ident) (by decide)
  rw [Grammar.parameters, mul_assoc]
  exact (hnames.after? (.symbol .openParen)).map _

theorem starts_inBraces (form : Form) : Starts (inBraces form) [.symbol .openBrace] :=
  (starts_word _).mul.mul

theorem Reads.braced {body : Parser (List α)} {form : Form} {more : Option TokenKind → Bool}
    (h : Reads body form more) (hclose : more (some (.symbol .closeBrace)) = false) :
    Reads (Parser.braced body) (opt (inBraces form)) (oneOf [.symbol .openBrace]) := by
  have hbody := h.closed .closeBrace id hclose
  rw [inBraces, mul_assoc]
  exact (hbody.after? (.symbol .openBrace)).map _

/-- The loop up to the closing brace stops there and nowhere else. -/
theorem Reads.untilBrace {item : Parser α} {form : Form} {kinds starts : List TokenKind}
    (h : Reads item form (oneOf kinds)) (hstarts : Starts form starts)
    (hfirst : .symbol .closeBrace ∉ starts) (hclose : .symbol .closeBrace ∉ kinds)
    (hapart : ∀ kind ∈ starts, kind ∉ kinds) :
    Reads (Parser.untilBrace item) form∗ (· ≠ some (.symbol .closeBrace)) := by
  refine Reads.mono (h.repeatWhile hstarts ?_ ?_) ?_
  · intro kind hkind
    simp only [decide_eq_true_eq, ne_eq, Option.some.injEq]
    rintro rfl
    exact hfirst hkind
  · intro kind hkind
    exact oneOf_some.2 (hapart kind hkind)
  · intro next hnext
    have heq : next = some (.symbol .closeBrace) := by simpa using hnext
    rw [heq, oneOf_some.2 hclose]
    rfl

/-! ## Imports -/

theorem reads_importKind : Reads importKind (kw .platformKw + kw .libraryKw) (oneOf []) := by
  have h : Reads importKind (kw .platformKw * 1 + (kw .libraryKw * 1 + 0)) (oneOf []) := by
    apply Reads.accept?_bind
    · intro _
      exact reads_pure _
    · apply Reads.accept?_bind
      · intro _
        exact reads_pure _
      · exact reads_reject _ _
      · intro phrase hphrase
        exact absurd hphrase (Language.notMem_zero _)
    · intro phrase hphrase next _
      rw [mul_one, add_zero] at hphrase
      exact (starts_word _).lookahead_ne (by decide) hphrase next
  rwa [mul_one, mul_one, add_zero] at h

theorem reads_aliasName : Reads aliasName (ident + string) (oneOf []) := by
  rw [add_comm]
  apply Reads.next?_ite reads_quotedText (reads_name.map _) (starts_word _)
  intro phrase hphrase next _
  exact (starts_word _).lookahead_ne (by decide) hphrase next

theorem reads_importDeclaration :
    Reads importDeclaration importForm (oneOf [.keyword .asKw]) := by
  have halias := reads_aliasName.after? (.keyword .asKw)
  have h := (reads_keyword .importKw).seq fun _ =>
    reads_importKind.seq fun kind =>
    reads_quotedText.seq fun path =>
    halias.map fun aliasName => (kind, path, aliasName)
  rw [← mul_assoc, ← mul_assoc] at h
  exact h.spanned.bind_pure fun _ => ⟨_, rfl⟩

theorem starts_importForm : Starts importForm [.keyword .importKw] :=
  (starts_word _).mul.mul.mul

/-! ## Platforms and libraries -/

theorem reads_event : Reads Parser.event Grammar.event (oneOf [.symbol .openParen]) := by
  rw [Grammar.event, mul_assoc]
  exact (reads_keyword .eventKw).seq fun _ => reads_name.seq fun _ => reads_parameters.map _

theorem starts_event : Starts Grammar.event [.keyword .eventKw] :=
  (starts_word _).mul.mul

theorem reads_provider : Reads Parser.provider Grammar.provider (oneOf [.symbol .openBrace]) := by
  have hevents := reads_event.untilBrace starts_event (by decide) (by decide) (by decide)
  have hbody := hevents.braced (by decide)
  rw [Grammar.provider, mul_assoc]
  exact (reads_keyword .providerKw).seq fun _ => reads_name.seq fun _ => hbody.map _

theorem starts_provider : Starts Grammar.provider [.keyword .providerKw] :=
  (starts_word _).mul.mul

theorem reads_platform (imports : List ImportDeclaration) :
    Reads (Parser.platform imports) Grammar.platform
      (oneOf [.keyword .extendsKw, .symbol .dot, .symbol .openBrace]) := by
  have hproviders := reads_provider.untilBrace starts_provider (by decide) (by decide) (by decide)
  have hbody := hproviders.braced (by decide)
  have hbase := reads_qualified.after? (.keyword .extendsKw)
  have hstarts := MayStart.opt (starts_inBraces Grammar.provider∗)
  rw [Grammar.platform, mul_assoc, mul_assoc, mul_assoc]
  apply (reads_accept? (.keyword .abstractKw)).bind_of_starts
  · intro _
    exact (reads_keyword .platformKw).seq fun _ => reads_name.seq fun _ =>
      hbase.bind (fun _ => hbody.map _) hstarts (by decide)
  · exact (starts_word _).mul
  · decide

theorem starts_platform : Starts Grammar.platform [.keyword .abstractKw, .keyword .platformKw] := by
  rw [Grammar.platform, mul_assoc, mul_assoc, mul_assoc]
  apply Starts.opt_mul
  · exact (starts_word _).mono (by decide)
  · exact (starts_word _).mul.mono (by decide)

theorem reads_samplePhrases :
    Reads Parser.samplePhrases (opt Grammar.samplePhrases) (oneOf [.keyword .inputsKw]) := by
  have hphrases := reads_quotedText.listed .closeBrace (by decide) (by decide)
    (starts_word .string) (by decide)
  have hbody := (reads_symbol .openBrace).seq fun _ => hphrases
  rw [Grammar.samplePhrases, inBraces, mul_assoc]
  exact (hbody.after? (.keyword .inputsKw)).map _

/-- The lexemes with which an event or an intent of a library can go on. -/
def memberTail : List TokenKind :=
  [.keyword .followsKw, .symbol .dot, .symbol .openParen, .symbol .openBrace]

theorem reads_intent : Reads Parser.intent Grammar.intent (oneOf memberTail) := by
  have hbody := reads_samplePhrases.braced (by decide)
  have hfollows := reads_qualified.after? (.keyword .followsKw)
  have hopen := MayStart.opt (starts_inBraces (opt Grammar.samplePhrases))
  have hparameters : MayStart (opt Grammar.parameters) [.symbol .openParen] :=
    MayStart.opt (starts_word _).mul.mul
  rw [Grammar.intent, mul_assoc, mul_assoc, mul_assoc]
  exact (reads_keyword .intentKw).seq fun _ => reads_name.seq fun _ =>
    hfollows.bind (fun _ => reads_parameters.bind (fun _ => hbody.map _) hopen (by decide))
      (hparameters.mul hopen) (by decide)

theorem starts_intent : Starts Grammar.intent [.keyword .intentKw] :=
  (starts_word _).mul.mul.mul.mul

theorem reads_libraryMember :
    Reads libraryMember (Grammar.event + Grammar.intent) (oneOf memberTail) := by
  rw [add_comm]
  apply Reads.next?_ite reads_intent (reads_event.widen (by decide)) starts_intent
  intro phrase hphrase next _
  exact starts_event.lookahead_ne (by decide) hphrase next

theorem reads_library (imports : List ImportDeclaration) :
    Reads (Parser.library imports) Grammar.library (oneOf [.symbol .openBrace]) := by
  have hstarts : Starts (Grammar.event + Grammar.intent) [.keyword .eventKw, .keyword .intentKw] :=
    (starts_event.mono (by decide)).add (starts_intent.mono (by decide))
  have hmembers : Reads (repeatWhile startsLibraryMember libraryMember)
      (Grammar.event + Grammar.intent)∗
      fun next => startsLibraryMember next || oneOf memberTail next :=
    reads_libraryMember.repeatWhile hstarts (by decide) (by decide)
  have hbody := hmembers.braced (by decide)
  rw [Grammar.library, mul_assoc]
  exact (reads_keyword .libraryKw).seq fun _ => reads_name.seq fun _ => hbody.map _

theorem starts_library : Starts Grammar.library [.keyword .libraryKw] :=
  (starts_word _).mul.mul

/-! ## Conditions -/

theorem reads_integer : Reads Parser.integer Grammar.integer (oneOf []) where
  sound h := by
    obtain ⟨lexeme, between, hlexeme, hrest⟩ := bind_eq_ok_iff.1 h
    obtain ⟨hkind, heq⟩ := expect_eq_ok hlexeme
    split at hrest
    · next hvalue =>
      cases hrest
      refine ⟨[lexeme], heq, lexeme.text, ?_, hvalue⟩
      rw [← hkind]
      rfl
    · cases hrest
  complete {used rest} passed finish hphrase hnext := by
    obtain ⟨text, htext, hvalue⟩ := hphrase
    obtain ⟨lexeme, rfl, hword⟩ := List.map_eq_singleton_iff.1 htext
    have hkind : lexeme.kind = .integer := congrArg Prod.fst hword
    have htext : lexeme.text = text := congrArg Prod.snd hword
    have hread := expect_self hkind rest passed finish
    refine ⟨decimal text.toList, lexeme.span.stop, bind_eq_ok_iff.2 ⟨lexeme, _, hread, ?_⟩⟩
    have hlimit : decimal lexeme.text.toList ≤ integerLimit := by
      rw [htext]
      exact hvalue
    rw [if_pos hlimit, htext]
    rfl

theorem starts_integer : Starts Grammar.integer [.integer] := by
  rintro phrase ⟨text, rfl, -⟩
  exact ⟨(.integer, text), [], rfl, List.mem_singleton.2 rfl⟩

theorem reads_accessed :
    Reads accessed (ident * opt (sym .dot * ident)) (oneOf [.symbol .dot]) :=
  reads_name.seq fun _ => (reads_name.after? (.symbol .dot)).map _

theorem reads_descend_none (inner : Deeper → Parser Condition) (more : Option TokenKind → Bool) :
    Reads (descend none inner) 0 more where
  sound h := nomatch h
  complete _ _ hphrase := absurd hphrase (Language.notMem_zero _)

/-- The operands that start with a word of this kind. -/
def atomsAt (group : Form) : Option TokenKind → Form
  | some (.keyword .trueKw) => kw .trueKw
  | some (.keyword .falseKw) => kw .falseKw
  | some .string => string
  | some .integer => Grammar.integer
  | some (.symbol .openParen) => group
  | some .ident => ident * opt (sym .dot * ident)
  | _ => 0

theorem mem_atom {group : Form} {phrase : List Word} :
    phrase ∈ Grammar.atom group ↔ phrase ∈ kw .trueKw ∨ phrase ∈ kw .falseKw ∨ phrase ∈ string ∨
      phrase ∈ Grammar.integer ∨ phrase ∈ group ∨ phrase ∈ ident * opt (sym .dot * ident) := by
  simp only [Grammar.atom, Language.mem_add, or_assoc]

theorem reads_atom {deeper : Option Deeper} {group : Form}
    (hgroup : Reads (descend deeper fun readers => do
      symbol .openParen
      let inner ← readers.disjunction
      symbol .closeParen
      return inner) group (oneOf []))
    (hstarts : Starts group [.symbol .openParen]) :
    Reads (Parser.atom deeper) (Grammar.atom group) (oneOf [.symbol .dot]) := by
  apply Reads.next?_bind (atomsAt group)
  · intro next
    split
    · exact ((reads_keyword .trueKw).map _).widen (by decide)
    · exact ((reads_keyword .falseKw).map _).widen (by decide)
    · exact (reads_quotedText.map _).widen (by decide)
    · exact (reads_integer.map _).widen (by decide)
    · exact hgroup.widen (by decide)
    · exact reads_accessed
    · have hempty : atomsAt group next = 0 := by
        simp only [atomsAt]
      rw [hempty]
      exact reads_reject _ _
  · intro next phrase hphrase
    rw [mem_atom]
    unfold atomsAt at hphrase
    split at hphrase
    case h_7 => exact absurd hphrase (Language.notMem_zero _)
    all_goals simp only [hphrase, true_or, or_true]
  · intro phrase hphrase next _
    rcases mem_atom.1 hphrase with hphrase | hphrase | hphrase | hphrase | hphrase | hphrase
    · rw [(starts_word _).lookahead_eq hphrase]
      exact hphrase
    · rw [(starts_word _).lookahead_eq hphrase]
      exact hphrase
    · rw [(starts_word _).lookahead_eq hphrase]
      exact hphrase
    · rw [starts_integer.lookahead_eq hphrase]
      exact hphrase
    · rw [hstarts.lookahead_eq hphrase]
      exact hphrase
    · rw [(starts_word _).mul.lookahead_eq hphrase]
      exact hphrase

theorem starts_atom {group : Form} (hstarts : Starts group [.symbol .openParen]) :
    Starts (Grammar.atom group) [.keyword .trueKw, .keyword .falseKw, .string, .integer,
      .symbol .openParen, .ident] := by
  intro phrase hphrase
  rcases mem_atom.1 hphrase with hphrase | hphrase | hphrase | hphrase | hphrase | hphrase
  · exact (starts_word _).mono (by decide) phrase hphrase
  · exact (starts_word _).mono (by decide) phrase hphrase
  · exact (starts_word _).mono (by decide) phrase hphrase
  · exact starts_integer.mono (by decide) phrase hphrase
  · exact hstarts.mono (by decide) phrase hphrase
  · exact (starts_word _).mul.mono (by decide) phrase hphrase

def comparators : List TokenKind :=
  [.symbol .equal, .symbol .notEqual, .symbol .less, .symbol .lessEqual, .symbol .greater,
    .symbol .greaterEqual]

/-- The lexemes with which a comparison can go on. -/
def comparisonTail : List TokenKind := .symbol .dot :: comparators

theorem comparison?_eq_none {kind : TokenKind} (h : kind ∉ comparators) :
    comparison? kind = none := by
  unfold comparison?
  split <;> first | rfl | exact absurd (by decide) h

theorem isSome_comparison? {kind : TokenKind} (h : kind ∈ comparators) :
    (comparison? kind).isSome = true := by
  revert kind
  decide

theorem mem_comparator {phrase : List Word} :
    phrase ∈ comparator ↔ ∃ kind ∈ comparators, phrase ∈ word kind := by
  simp only [comparator, Language.mem_add, comparators, List.mem_cons, List.not_mem_nil, or_false,
    exists_eq_or_imp, exists_eq_left, or_assoc]
  rfl

theorem starts_comparator : Starts comparator comparators := by
  intro phrase hphrase
  obtain ⟨kind, hkind, text, rfl⟩ := mem_comparator.1 hphrase
  exact ⟨(kind, text), [], rfl, hkind⟩

/-- The rest of a comparison behind its first operand, if a word of this kind comes next. -/
def comparisonsAt (operand : Form) : Option TokenKind → Form
  | none => 1
  | some kind =>
    match comparison? kind with
    | none => 1
    | some _ => word kind * operand

theorem comparisonsAt_of_mem {operand : Form} {kind : TokenKind} (h : kind ∈ comparators) :
    comparisonsAt operand (some kind) = word kind * operand := by
  obtain ⟨op, hop⟩ := Option.isSome_iff_exists.1 (isSome_comparison? h)
  simp only [comparisonsAt, hop]

theorem comparisonsAt_of_oneOf {operand : Form} {next : Option TokenKind}
    (h : oneOf comparators next = false) : comparisonsAt operand next = 1 := by
  cases next with
  | none => rfl
  | some kind => simp only [comparisonsAt, comparison?_eq_none (oneOf_some.1 h)]

theorem reads_comparison {deeper : Option Deeper} {group : Form}
    (hatom : Reads (Parser.atom deeper) (Grammar.atom group) (oneOf [.symbol .dot])) :
    Reads (Parser.comparison deeper) (Grammar.comparison group) (oneOf comparisonTail) := by
  rw [Grammar.comparison]
  apply hatom.bind_of_mayStart
  · intro left
    apply Reads.next?_bind (comparisonsAt (Grammar.atom group))
    · intro next
      cases next with
      | none => exact (reads_pure left).widen (List.nil_subset _)
      | some kind =>
        dsimp only [comparisonsAt]
        cases comparison? kind with
        | none => exact (reads_pure left).widen (List.nil_subset _)
        | some op =>
          have hoperand : Reads _ _ (oneOf comparisonTail) :=
            (hatom.map (Condition.binary op left)).widen (by decide)
          exact (reads_discard (reads_expect kind)).seq fun _ => hoperand
    · intro next phrase hphrase
      cases hnext : oneOf comparators next with
      | false =>
        rw [comparisonsAt_of_oneOf hnext] at hphrase
        exact Or.inl hphrase
      | true =>
        obtain ⟨kind, rfl, hkind⟩ := oneOf_eq_true.1 hnext
        rw [comparisonsAt_of_mem hkind] at hphrase
        obtain ⟨a, ha, b, hb, rfl⟩ := Language.mem_mul.1 hphrase
        exact Or.inr (Language.append_mem_mul (mem_comparator.2 ⟨kind, hkind, ha⟩) hb)
    · intro phrase hphrase next hnext
      rcases (Language.mem_add _ _ _).1 hphrase with hempty | hphrase
      · have hother : oneOf comparators next = false := oneOf_mono (by decide) hnext
        rw [(Language.mem_one phrase).1 hempty, lookahead_nil, comparisonsAt_of_oneOf hother]
        rfl
      · obtain ⟨a, ha, b, hb, rfl⟩ := Language.mem_mul.1 hphrase
        obtain ⟨kind, hkind, text, rfl⟩ := mem_comparator.1 ha
        rw [List.singleton_append, lookahead_cons, comparisonsAt_of_mem hkind]
        have hword : [(kind, text)] ∈ word kind := ⟨text, rfl⟩
        exact Language.append_mem_mul hword hb
  · exact MayStart.opt starts_comparator.mul
  · decide
  · intro next
    exact oneOf_mono (by decide)

theorem reads_unary_of {deeper : Option Deeper} {negation group : Form}
    (hnegation : Reads (descend deeper fun readers => do
      symbol .bang
      return .not (← readers.unary)) negation (oneOf comparisonTail))
    (hbang : Starts negation [.symbol .bang])
    (hgroup : Reads (descend deeper fun readers => do
      symbol .openParen
      let inner ← readers.disjunction
      symbol .closeParen
      return inner) group (oneOf []))
    (hopen : Starts group [.symbol .openParen]) :
    Reads (Parser.unary deeper) (negation + Grammar.comparison group) (oneOf comparisonTail) := by
  apply Reads.next?_ite hnegation (reads_comparison (reads_atom hgroup hopen)) hbang
  intro phrase hphrase next _
  exact (starts_atom hopen).mul.lookahead_ne (by decide) hphrase next

theorem Reads.chain {operand : Parser Condition} {form : Form} {kinds : List TokenKind}
    (mark : Symbol) (op : Operator) (h : Reads operand form (oneOf kinds))
    (hmark : .symbol mark ∉ kinds) :
    Reads (Parser.chain mark op operand) (separatedBy mark form) (oneOf (.symbol mark :: kinds)) :=
  (h.separated mark hmark).bind_pure fun _ => ⟨_, rfl⟩

def conditionTail : List TokenKind := .symbol .either :: .symbol .both :: comparisonTail

theorem Reads.disjunction {deeper : Option Deeper} {form : Form}
    (h : Reads (Parser.unary deeper) form (oneOf comparisonTail)) :
    Reads (Parser.disjunction deeper) (Grammar.disjunction form) (oneOf conditionTail) :=
  (h.chain .both .and (by decide)).chain .either .or (by decide)

/-- The readers for conditions, by induction on how deep they may still be nested. -/
theorem reads_unary (depth : Nat) :
    Reads (Parser.unary (deeper depth)) (Grammar.unary depth) (oneOf comparisonTail) := by
  induction depth with
  | zero =>
    have hstarts (kinds : List TokenKind) : Starts 0 kinds :=
      fun _ hphrase => absurd hphrase (Language.notMem_zero _)
    rw [Grammar.unary, ← zero_add (Grammar.comparison 0)]
    exact reads_unary_of (reads_descend_none _ _) (hstarts _) (reads_descend_none _ _) (hstarts _)
  | succ depth ih =>
    rw [Grammar.unary]
    apply reads_unary_of
    · exact (reads_symbol .bang).seq fun _ => ih.map Condition.not
    · exact (starts_word _).mul
    · rw [mul_assoc]
      exact (reads_symbol .openParen).seq fun _ => ih.disjunction.closed .closeParen id (by decide)
    · exact (starts_word _).mul.mul

theorem reads_condition : Reads Parser.condition Grammar.condition (oneOf conditionTail) :=
  (reads_unary nestingLimit).disjunction

/-! ## Execution models -/

theorem reads_transition :
    Reads Parser.transition Grammar.transition (oneOf (.keyword .whenKw :: conditionTail)) := by
  have hcondition := reads_condition.after? (.keyword .whenKw)
  have h := (reads_symbol .arrow).seq fun _ =>
    reads_name.seq fun target => hcondition.map fun condition => (target, condition)
  rw [← mul_assoc] at h
  exact h.spanned.bind_pure fun _ => ⟨_, rfl⟩

theorem starts_transition : Starts Grammar.transition [.symbol .arrow] :=
  (starts_word _).mul.mul

theorem reads_rule :
    Reads rule (kw .onKw * Grammar.qualified * inBraces Grammar.transition∗) (oneOf []) := by
  have htransitions := reads_transition.repeatWhile_eq starts_transition (by decide)
  have hbody (event : Reference) : Reads (do
        symbol .openBrace
        let transitions ← repeatWhile (· = some (.symbol .arrow)) Parser.transition
        symbol .closeBrace
        return (event, transitions)) (inBraces Grammar.transition∗) (oneOf []) := by
    rw [inBraces, mul_assoc]
    exact (reads_symbol .openBrace).seq fun _ =>
      htransitions.closed .closeBrace (fun transitions => (event, transitions)) (by decide)
  have h := (reads_keyword .onKw).seq fun _ =>
    reads_qualified.bind_of_starts hbody (starts_inBraces _) (by decide)
  rw [← mul_assoc] at h
  exact h.spanned.bind_pure fun _ => ⟨_, rfl⟩

/-- The members of an execution model that start with a word of this kind. -/
def membersAt : Option TokenKind → Form
  | some (.keyword .useKw) => kw .useKw * kw .providerKw * Grammar.qualified
  | some (.keyword .stateKw) => kw .stateKw * ident
  | some (.keyword .onKw) => kw .onKw * Grammar.qualified * inBraces Grammar.transition∗
  | _ => 0

theorem reads_executionMember :
    Reads Parser.executionMember Grammar.executionMember (oneOf [.symbol .dot]) := by
  apply Reads.next?_bind membersAt
  · intro next
    split
    · rw [membersAt, mul_assoc]
      exact (reads_keyword .useKw).seq fun _ => (reads_keyword .providerKw).seq fun _ =>
        reads_qualified.map _
    · exact ((reads_keyword .stateKw).seq fun _ => reads_name.map _).widen (by decide)
    · exact (reads_rule.map _).widen (by decide)
    · have hempty : membersAt next = 0 := by
        simp only [membersAt]
      rw [hempty]
      exact reads_reject _ _
  · intro next phrase hphrase
    unfold membersAt at hphrase
    split at hphrase
    · exact Or.inl (Or.inl hphrase)
    · exact Or.inl (Or.inr hphrase)
    · exact Or.inr hphrase
    · exact absurd hphrase (Language.notMem_zero _)
  · intro phrase hphrase next _
    rcases hphrase with (hphrase | hphrase) | hphrase
    · rw [(starts_word _).mul.mul.lookahead_eq hphrase]
      exact hphrase
    · rw [(starts_word _).mul.lookahead_eq hphrase]
      exact hphrase
    · rw [(starts_word _).mul.mul.lookahead_eq hphrase]
      exact hphrase

theorem starts_executionMember :
    Starts Grammar.executionMember [.keyword .useKw, .keyword .stateKw, .keyword .onKw] := by
  apply Starts.add
  · exact ((starts_word _).mul.mul.mono (by decide)).add ((starts_word _).mul.mono (by decide))
  · exact (starts_word _).mul.mul.mono (by decide)

/-- An execution model goes on up to the end of the text. -/
theorem reads_execution (imports : List ImportDeclaration) :
    Reads (execution imports) Grammar.executionMember∗ Option.isSome := by
  have hmembers : Reads (repeatWhile Option.isSome Parser.executionMember)
      Grammar.executionMember∗ fun next => next.isSome || oneOf [.symbol .dot] next :=
    reads_executionMember.repeatWhile starts_executionMember (by decide) (by decide)
  refine Reads.mono (hmembers.map _) fun next hnext => ?_
  rw [Option.isSome_eq_false_iff, Option.isNone_iff_eq_none] at hnext
  subst hnext
  rfl

/-! ## Documents -/

/-- What can stand behind the imports if a word of this kind comes next. -/
def contentsAt : Option TokenKind → Form
  | some (.keyword .platformKw) => Grammar.platform
  | some (.keyword .abstractKw) => Grammar.platform
  | some (.keyword .libraryKw) => Grammar.library
  | _ => Grammar.executionMember∗

theorem oneOf_eq_false_of_isSome {kinds : List TokenKind} {next : Option TokenKind}
    (h : next.isSome = false) : oneOf kinds next = false := by
  cases next with
  | none => rfl
  | some kind => cases h

theorem reads_contents (imports : List ImportDeclaration) :
    Reads (contents imports)
      (Grammar.platform + Grammar.library + Grammar.executionMember∗) Option.isSome := by
  have hplatform : Reads _ Grammar.platform Option.isSome :=
    ((reads_platform imports).map Document.platform).mono fun _ => oneOf_eq_false_of_isSome
  have hlibrary : Reads _ Grammar.library Option.isSome :=
    ((reads_library imports).map Document.library).mono fun _ => oneOf_eq_false_of_isSome
  apply Reads.next?_bind contentsAt
  · intro next
    split
    · exact hplatform
    · exact hplatform
    · exact hlibrary
    · have hmembers : contentsAt next = Grammar.executionMember∗ := by
        simp only [contentsAt]
      rw [hmembers]
      exact (reads_execution imports).map _
  · intro next phrase hphrase
    unfold contentsAt at hphrase
    split at hphrase
    · exact Or.inl (Or.inl hphrase)
    · exact Or.inl (Or.inl hphrase)
    · exact Or.inl (Or.inr hphrase)
    · exact Or.inr hphrase
  · intro phrase hphrase next hnext
    rcases hphrase with (hphrase | hphrase) | hphrase
    · obtain ⟨first, rest, rfl, hmem⟩ := starts_platform phrase hphrase
      rw [lookahead_cons]
      simp only [List.mem_cons, List.not_mem_nil, or_false] at hmem
      rcases hmem with hkind | hkind
      all_goals
        rw [hkind]
        exact hphrase
    · rw [starts_library.lookahead_eq hphrase]
      exact hphrase
    · rcases starts_executionMember.kstar phrase hphrase with rfl | ⟨first, rest, rfl, hmem⟩
      · rw [Option.isSome_eq_false_iff, Option.isNone_iff_eq_none] at hnext
        rw [lookahead_nil, hnext]
        exact hphrase
      · rw [lookahead_cons]
        simp only [List.mem_cons, List.not_mem_nil, or_false] at hmem
        rcases hmem with hkind | hkind | hkind
        all_goals
          rw [hkind]
          exact hphrase

theorem reads_imports_contents :
    Reads (repeatWhile (· = some (.keyword .importKw)) importDeclaration >>= contents)
      Grammar.document Option.isSome := by
  have himports := reads_importDeclaration.repeatWhile_eq starts_importForm (by decide)
  have hstarts := (starts_platform.mayStart.add starts_library.mayStart).add
    starts_executionMember.kstar
  apply himports.bind_of_mayStart reads_contents hstarts
  · decide
  · intro next
    exact oneOf_eq_false_of_isSome

theorem rest_eq_nil_of_documentEnd {cursor ahead : Cursor} {value : Unit}
    (h : documentEnd cursor = .ok (value, ahead)) : cursor.rest = [] := by
  cases hrest : cursor.rest with
  | nil => rfl
  | cons lexeme rest =>
    have hnext : cursor.next?.isSome = true := by
      rw [Cursor.next?, hrest]
      rfl
    change (if cursor.next?.isSome = true then reject .documentEnd else pure ()) cursor = _ at h
    rw [if_pos hnext] at h
    cases h

/-- The whole text is a document exactly if its words form one. -/
theorem isOk_document_iff (cursor : Cursor) :
    (Parser.document cursor).isOk = true ↔ cursor.rest.map Lexeme.word ∈ Grammar.document := by
  have hassoc : Parser.document =
      (repeatWhile (· = some (.keyword .importKw)) importDeclaration >>= contents) >>=
        fun document => documentEnd >>= fun _ => pure document :=
    (bind_assoc _ _ _).symm
  rw [hassoc, isOk_iff]
  constructor
  · rintro ⟨⟨value, ahead⟩, hread⟩
    obtain ⟨document, between, hdocument, hread⟩ := bind_eq_ok_iff.1 hread
    obtain ⟨_, _, hend, -⟩ := bind_eq_ok_iff.1 hread
    obtain ⟨used, hused, hphrase⟩ := reads_imports_contents.sound hdocument
    rw [rest_eq_nil_of_documentEnd hend, List.append_nil] at hused
    rw [hused]
    exact hphrase
  · intro hphrase
    obtain ⟨rest, passed, finish⟩ := cursor
    have hnothing : (following []).isSome = false := rfl
    obtain ⟨document, stop, hdocument⟩ :=
      reads_imports_contents.complete passed finish hphrase hnothing
    rw [List.append_nil] at hdocument
    exact ⟨(document, _), bind_eq_ok_iff.2 ⟨document, ⟨[], stop, finish⟩, hdocument, rfl⟩⟩

end Parser

theorem Document.isOk_ofLexemes_iff (cursor : Cursor) :
    (Document.ofLexemes cursor).isOk = true ↔
      cursor.rest ≠ [] ∧ cursor.rest.map Lexeme.word ∈ Grammar.document := by
  unfold Document.ofLexemes
  split
  · next hempty =>
    rw [List.isEmpty_iff] at hempty
    exact iff_of_false Bool.false_ne_true fun h => h.1 hempty
  · next hempty =>
    rw [List.isEmpty_iff] at hempty
    rw [isOk_map, and_iff_right hempty]
    exact Parser.isOk_document_iff cursor

/-- A token as the grammar sees it. -/
def Token.word (token : Token) : Word := (token.kind, token.text)

theorem map_word_ofText (source : String) :
    (Lexeme.ofText source).map Lexeme.word = (Token.significant source).map Token.word := by
  simp only [Lexeme.ofText, List.map_map]
  rfl

/-- A text can be read as a document exactly if it has tokens besides comments and these form a
document of the grammar. -/
theorem Document.isOk_parse_iff_mem_document (source location : String) :
    (Document.parse source location).isOk = true ↔ Token.significant source ≠ [] ∧
      (Token.significant source).map Token.word ∈ Grammar.document := by
  have hempty : Lexeme.ofText source ≠ [] ↔ Token.significant source ≠ [] := by
    rw [Lexeme.ofText, ne_eq, List.map_eq_nil_iff]
  rw [Document.parse, isOk_map, Document.isOk_ofLexemes_iff, ← map_word_ofText, ← hempty]
  rfl

end CrossModel
