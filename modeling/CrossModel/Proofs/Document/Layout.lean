import CrossModel.Proofs.Document.Acceptance
import CrossModel.Proofs.Token.Spacing

/-!
# Layout does not matter

The places of lexemes only ever end up in spans. `Unplaces` says so of a reader: to read lexemes
without their places is to read them and to forget the places afterwards. Two texts with the same
words are the same lexemes without places, so the documents read from them differ in spans alone,
and so do the errors.
-/

namespace CrossModel

/-! ## Forgetting places -/

def Lexeme.unplaced (lexeme : Lexeme) : Lexeme := { lexeme with span := .zero }

def Cursor.unplaced (cursor : Cursor) : Cursor :=
  ⟨cursor.rest.map Lexeme.unplaced, .zero, .zero⟩

namespace Cursor

theorem next?_unplaced (cursor : Cursor) : cursor.unplaced.next? = cursor.next? := by
  obtain ⟨rest, passed, finish⟩ := cursor
  cases rest <;> rfl

theorem start_unplaced (cursor : Cursor) : cursor.unplaced.start = .zero := by
  obtain ⟨rest, passed, finish⟩ := cursor
  cases rest <;> rfl

theorem length_rest_unplaced (cursor : Cursor) :
    cursor.unplaced.rest.length = cursor.rest.length :=
  List.length_map _

end Cursor

def ParseError.unplaced (error : ParseError) : ParseError := { error with span := .zero }

def Name.unplaced (name : Name) : Name := { name with span := .zero }

def Reference.unplaced (reference : Reference) : Reference := { reference with span := .zero }

def ImportDeclaration.unplaced (declaration : ImportDeclaration) : ImportDeclaration :=
  { declaration with span := .zero }

def IntentDetails.unplaced (details : IntentDetails) : IntentDetails :=
  { details with follows := details.follows.map Reference.unplaced }

def Event.unplaced (event : Event) : Event where
  name := event.name.unplaced
  parameters := event.parameters.map Name.unplaced
  intent := event.intent.map IntentDetails.unplaced

def Provider.unplaced (provider : Provider) : Provider where
  name := provider.name.unplaced
  events := provider.events.map Event.unplaced

def Platform.unplaced (platform : Platform) : Platform :=
  { platform with
    name := platform.name.unplaced
    base := platform.base.map Reference.unplaced
    imports := platform.imports.map ImportDeclaration.unplaced
    providers := platform.providers.map Provider.unplaced }

def Library.unplaced (library : Library) : Library :=
  { library with
    name := library.name.unplaced
    imports := library.imports.map ImportDeclaration.unplaced
    events := library.events.map Event.unplaced }

def Condition.unplaced : Condition → Condition
  | literal value => literal value
  | access target field => access target.unplaced (field.map Name.unplaced)
  | not inner => not inner.unplaced
  | binary op left right => binary op left.unplaced right.unplaced

def Transition.unplaced (transition : Transition) : Transition where
  state := transition.state.unplaced
  condition := transition.condition.map Condition.unplaced
  span := .zero

def Rule.unplaced (rule : Rule) : Rule where
  event := rule.event.unplaced
  transitions := rule.transitions.map Transition.unplaced
  span := .zero

def Execution.unplaced (model : Execution) : Execution :=
  { model with
    imports := model.imports.map ImportDeclaration.unplaced
    providers := model.providers.map Reference.unplaced
    states := model.states.map Name.unplaced
    rules := model.rules.map Rule.unplaced }

/-- The document with all its spans erased. -/
def Document.unplaced : Document → Document
  | platform content => platform content.unplaced
  | library content => library content.unplaced
  | execution content => execution content.unplaced

theorem Document.unplaced_relocate (document : Document) (location : String) :
    (document.relocate location).unplaced = document.unplaced.relocate location := by
  cases document <;> rfl

namespace Parser

variable {α β : Type}

def ExecutionMember.unplaced : ExecutionMember → ExecutionMember
  | provider reference => provider reference.unplaced
  | state name => state name.unplaced
  | rule content => rule content.unplaced

/-- The outcome of reading with its places forgotten, where `erase` forgets those of the value. -/
def forget (erase : α → α) : Except ParseError (α × Cursor) → Except ParseError (α × Cursor)
  | .ok (value, ahead) => .ok (erase value, ahead.unplaced)
  | .error error => .error error.unplaced

/-- Without places, `bare` reads what `reader` reads with them. -/
def Unplaces (erase : α → α) (reader bare : Parser α) : Prop :=
  ∀ cursor, bare cursor.unplaced = forget erase (reader cursor)

/-- What a reader does depends on places in its spans alone. -/
abbrev IgnoresPlaces (erase : α → α) (reader : Parser α) : Prop :=
  Unplaces erase reader reader

/-! ## Combinators -/

theorem unplaces_pure {erase : α → α} {value bare : α} (h : bare = erase value) :
    Unplaces erase (pure value) (pure bare) := by
  intro cursor
  rw [h]
  rfl

theorem Unplaces.bind {erase : α → α} {erase' : β → β} {reader bare : Parser α}
    {further bareFurther : α → Parser β} (h : Unplaces erase reader bare)
    (hfurther : ∀ value, Unplaces erase' (further value) (bareFurther (erase value))) :
    Unplaces erase' (reader >>= further) (bare >>= bareFurther) := by
  intro cursor
  have hbare := h cursor
  change (bare cursor.unplaced >>= fun result => bareFurther result.1 result.2) =
    forget erase' (reader cursor >>= fun result => further result.1 result.2)
  cases hreader : reader cursor with
  | error error =>
    rw [hbare, hreader]
    rfl
  | ok result =>
    rw [hbare, hreader]
    exact hfurther result.1 result.2

theorem Unplaces.map {erase : α → α} {erase' : β → β} {reader bare : Parser α}
    {change bareChange : α → β} (h : Unplaces erase reader bare)
    (hchange : ∀ value, bareChange (erase value) = erase' (change value)) :
    Unplaces erase' (reader >>= fun value => pure (change value))
      (bare >>= fun value => pure (bareChange value)) :=
  h.bind fun value => unplaces_pure (hchange value)

theorem ignoresPlaces_next? : IgnoresPlaces id next? := by
  intro cursor
  rw [next?, Cursor.next?_unplaced]
  rfl

theorem ignoresPlaces_get : IgnoresPlaces Cursor.unplaced (get : Parser Cursor) :=
  fun _ => rfl

theorem ignoresPlaces_reject (erase : α → α) (expected : Expected) :
    IgnoresPlaces erase (reject expected) := by
  rintro ⟨rest, passed, finish⟩
  cases rest with
  | nil => rfl
  | cons lexeme rest =>
    simp only [reject, forget, Cursor.mismatch, Cursor.unplaced, List.map_cons, Lexeme.unplaced]
    split <;> rfl

theorem ignoresPlaces_accept? (kind : TokenKind) :
    IgnoresPlaces (Option.map Lexeme.unplaced) (accept? kind) := by
  rintro ⟨rest, passed, finish⟩
  cases rest with
  | nil => rfl
  | cons lexeme rest =>
    simp only [accept?, Cursor.unplaced, List.map_cons, Lexeme.unplaced]
    split <;> rfl

theorem ignoresPlaces_expect (kind : TokenKind) :
    IgnoresPlaces Lexeme.unplaced (expect kind) := by
  apply (ignoresPlaces_accept? kind).bind
  intro found
  cases found with
  | some lexeme => exact unplaces_pure rfl
  | none => exact ignoresPlaces_reject _ _

theorem ignoresPlaces_discard_expect (kind : TokenKind) :
    IgnoresPlaces id (discard (expect kind)) :=
  (ignoresPlaces_expect kind).map fun _ => rfl

theorem ignoresPlaces_keyword (word : Keyword) : IgnoresPlaces id (keyword word) :=
  ignoresPlaces_discard_expect _

theorem ignoresPlaces_symbol (mark : Symbol) : IgnoresPlaces id (symbol mark) :=
  ignoresPlaces_discard_expect _

theorem Unplaces.after? {erase : α → α} {item : Parser α} (h : IgnoresPlaces erase item)
    (kind : TokenKind) : IgnoresPlaces (Option.map erase) (after? kind item) := by
  apply (ignoresPlaces_accept? kind).bind
  intro found
  cases found with
  | some lexeme => exact h.map fun _ => rfl
  | none => exact unplaces_pure rfl

/-- The loop takes the same rounds on both sides. -/
theorem Unplaces.repeatWhile {erase : α → α} {item : Parser α} (h : IgnoresPlaces erase item)
    (more : Option TokenKind → Bool) :
    IgnoresPlaces (List.map erase) (repeatWhile more item) := by
  intro cursor
  fun_induction Parser.repeatWhile more item cursor with
  | case1 cursor hmore error hitem =>
    rw [Parser.repeatWhile, Cursor.next?_unplaced, if_pos hmore, h cursor, hitem]
    rfl
  | case2 cursor hmore value between hitem hless error hrest ih =>
    rw [Parser.repeatWhile, Cursor.next?_unplaced, if_pos hmore, h cursor, hitem]
    simp only [forget, Cursor.length_rest_unplaced, hless, if_true, ih, hrest]
  | case3 cursor hmore value between hitem hless values done hrest ih =>
    rw [Parser.repeatWhile, Cursor.next?_unplaced, if_pos hmore, h cursor, hitem]
    simp only [forget, Cursor.length_rest_unplaced, hless, if_true, ih, hrest, List.map_cons]
  | case4 cursor hmore value between hitem hless =>
    rw [Parser.repeatWhile, Cursor.next?_unplaced, if_pos hmore, h cursor, hitem]
    simp only [forget, Cursor.length_rest_unplaced, hless, if_false, List.map_cons, List.map_nil]
  | case5 cursor hmore =>
    rw [Parser.repeatWhile, Cursor.next?_unplaced, if_neg hmore]
    rfl

theorem Unplaces.separated {erase : α → α} {item : Parser α} (h : IgnoresPlaces erase item)
    (mark : Symbol) : IgnoresPlaces (Prod.map erase (List.map erase)) (separated mark item) := by
  have hmarked : IgnoresPlaces erase (symbol mark *> item) :=
    (ignoresPlaces_symbol mark).bind fun _ => h
  exact h.bind fun first => (hmarked.repeatWhile _).map fun _ => rfl

theorem Unplaces.next?_ite {erase : α → α} {reader other : Parser α} (kind : TokenKind)
    (hreader : IgnoresPlaces erase reader) (hother : IgnoresPlaces erase other) :
    IgnoresPlaces erase (next? >>= fun next => if next = some kind then reader else other) := by
  apply ignoresPlaces_next?.bind
  intro next
  rw [id]
  split
  · exact hreader
  · exact hother

theorem Unplaces.listed {erase : α → α} {item : Parser α} (h : IgnoresPlaces erase item)
    (close : Symbol) : IgnoresPlaces (List.map erase) (listed close item) := by
  apply Unplaces.next?_ite
  · exact (ignoresPlaces_symbol close).map fun _ => rfl
  · exact (h.separated .comma).bind fun items => (ignoresPlaces_symbol close).map fun _ => rfl

theorem Unplaces.spanned {erase : α → α} {item : Parser α} (h : IgnoresPlaces erase item) :
    IgnoresPlaces (Prod.map erase fun _ => .zero) (spanned item) := by
  apply ignoresPlaces_get.bind
  intro before
  refine h.bind fun value => ignoresPlaces_get.map fun behind => ?_
  rw [Cursor.start_unplaced]
  rfl

/-! ## Readers -/

theorem ignoresPlaces_name : IgnoresPlaces Name.unplaced name :=
  (ignoresPlaces_expect .ident).map fun _ => rfl

theorem ignoresPlaces_qualified : IgnoresPlaces Reference.unplaced qualified := by
  have h := ((ignoresPlaces_expect .ident).separated .dot).spanned
  refine h.bind fun ((first, others), span) => ?_
  apply unplaces_pure
  simp [Reference.unplaced, Lexeme.unplaced, Function.comp_def]

theorem ignoresPlaces_quotedText : IgnoresPlaces id quotedText :=
  (ignoresPlaces_expect .string).map fun _ => rfl

theorem ignoresPlaces_parameters : IgnoresPlaces (List.map Name.unplaced) parameters := by
  have h := (ignoresPlaces_name.listed .closeParen).after? (.symbol .openParen)
  refine h.map fun names => ?_
  cases names <;> rfl

theorem Unplaces.braced {erase : α → α} {body : Parser (List α)}
    (h : IgnoresPlaces (List.map erase) body) : IgnoresPlaces (List.map erase) (braced body) := by
  have hbody : IgnoresPlaces (List.map erase) (do
      let items ← body
      symbol .closeBrace
      return items) :=
    h.bind fun items => (ignoresPlaces_symbol .closeBrace).map fun _ => rfl
  refine (hbody.after? (.symbol .openBrace)).map fun items => ?_
  cases items <;> rfl

theorem ignoresPlaces_importKind : IgnoresPlaces id importKind := by
  apply (ignoresPlaces_accept? _).bind
  intro platform
  cases platform with
  | some lexeme => exact unplaces_pure rfl
  | none =>
    apply (ignoresPlaces_accept? _).bind
    intro library
    cases library with
    | some lexeme => exact unplaces_pure rfl
    | none => exact ignoresPlaces_reject _ _

theorem ignoresPlaces_aliasName : IgnoresPlaces id aliasName :=
  ignoresPlaces_quotedText.next?_ite _ (ignoresPlaces_name.map fun _ => rfl)

theorem ignoresPlaces_importDeclaration :
    IgnoresPlaces ImportDeclaration.unplaced importDeclaration := by
  have halias : IgnoresPlaces id (after? (.keyword .asKw) aliasName) := by
    simpa using ignoresPlaces_aliasName.after? (.keyword .asKw)
  have h : IgnoresPlaces id (do
      keyword .importKw
      let kind ← importKind
      let path ← quotedText
      let aliasName ← after? (.keyword .asKw) aliasName
      return (kind, path, aliasName)) :=
    (ignoresPlaces_keyword _).bind fun _ => ignoresPlaces_importKind.bind fun kind =>
      ignoresPlaces_quotedText.bind fun path => halias.map fun _ => rfl
  exact h.spanned.map fun _ => rfl

theorem ignoresPlaces_event : IgnoresPlaces Event.unplaced event :=
  (ignoresPlaces_keyword _).bind fun _ => ignoresPlaces_name.bind fun _ =>
    ignoresPlaces_parameters.map fun _ => rfl

theorem ignoresPlaces_provider : IgnoresPlaces Provider.unplaced provider :=
  (ignoresPlaces_keyword _).bind fun _ => ignoresPlaces_name.bind fun _ =>
    (ignoresPlaces_event.repeatWhile _).braced.map fun _ => rfl

theorem unplaces_platform (imports : List ImportDeclaration) :
    Unplaces Platform.unplaced (platform imports)
      (platform (imports.map ImportDeclaration.unplaced)) := by
  apply (ignoresPlaces_accept? _).bind
  intro isAbstract
  refine (ignoresPlaces_keyword _).bind fun _ => ignoresPlaces_name.bind fun _ =>
    (ignoresPlaces_qualified.after? _).bind fun base =>
    (ignoresPlaces_provider.repeatWhile _).braced.map fun providers => ?_
  cases isAbstract <;> rfl

theorem ignoresPlaces_samplePhrases : IgnoresPlaces id samplePhrases := by
  have hphrases : IgnoresPlaces id (listed .closeBrace quotedText) := by
    simpa using ignoresPlaces_quotedText.listed .closeBrace
  have hbody : IgnoresPlaces id (do
      symbol .openBrace
      listed .closeBrace quotedText) :=
    (ignoresPlaces_symbol .openBrace).bind fun _ => hphrases
  have h := hbody.after? (.keyword .inputsKw)
  rw [Option.map_id] at h
  exact h.map fun _ => rfl

theorem ignoresPlaces_intent : IgnoresPlaces Event.unplaced intent := by
  have hbody : IgnoresPlaces (List.map id) (braced samplePhrases) := by
    apply Unplaces.braced
    simpa using ignoresPlaces_samplePhrases
  refine (ignoresPlaces_keyword _).bind fun _ => ignoresPlaces_name.bind fun _ =>
    (ignoresPlaces_qualified.after? _).bind fun follows =>
    ignoresPlaces_parameters.bind fun _ => hbody.map fun inputs => ?_
  simp
  rfl

theorem ignoresPlaces_libraryMember : IgnoresPlaces Event.unplaced libraryMember :=
  ignoresPlaces_intent.next?_ite _ ignoresPlaces_event

theorem unplaces_library (imports : List ImportDeclaration) :
    Unplaces Library.unplaced (library imports)
      (library (imports.map ImportDeclaration.unplaced)) :=
  (ignoresPlaces_keyword _).bind fun _ => ignoresPlaces_name.bind fun _ =>
    (ignoresPlaces_libraryMember.repeatWhile _).braced.map fun _ => rfl

/-! ### Conditions -/

theorem ignoresPlaces_integer : IgnoresPlaces id integer := by
  apply (ignoresPlaces_expect .integer).bind
  intro lexeme
  dsimp only [Lexeme.unplaced]
  split
  · exact unplaces_pure rfl
  · exact fun _ => rfl

theorem ignoresPlaces_accessed : IgnoresPlaces Condition.unplaced accessed :=
  ignoresPlaces_name.bind fun _ => (ignoresPlaces_name.after? _).map fun _ => rfl

/-- Both readers ignore places. -/
def Deeper.IgnorePlaces (readers : Deeper) : Prop :=
  IgnoresPlaces Condition.unplaced readers.unary ∧
    IgnoresPlaces Condition.unplaced readers.disjunction

theorem ignoresPlaces_descend {deeper : Option Deeper} {inner : Deeper → Parser Condition}
    (h : ∀ readers ∈ deeper, IgnoresPlaces Condition.unplaced (inner readers)) :
    IgnoresPlaces Condition.unplaced (descend deeper inner) := by
  cases deeper with
  | some readers => exact h readers rfl
  | none =>
    rintro ⟨rest, passed, finish⟩
    cases rest <;> rfl

theorem ignoresPlaces_atom {deeper : Option Deeper}
    (h : ∀ readers ∈ deeper, readers.IgnorePlaces) :
    IgnoresPlaces Condition.unplaced (atom deeper) := by
  apply ignoresPlaces_next?.bind
  intro next
  rw [id]
  split
  · exact (ignoresPlaces_keyword _).map fun _ => rfl
  · exact (ignoresPlaces_keyword _).map fun _ => rfl
  · exact ignoresPlaces_quotedText.map fun _ => rfl
  · exact ignoresPlaces_integer.map fun _ => rfl
  · apply ignoresPlaces_descend
    intro readers hreaders
    exact (ignoresPlaces_symbol _).bind fun _ => (h readers hreaders).2.bind fun _ =>
      (ignoresPlaces_symbol _).map fun _ => rfl
  · exact ignoresPlaces_accessed
  · exact ignoresPlaces_reject _ _

theorem ignoresPlaces_comparison {deeper : Option Deeper}
    (h : ∀ readers ∈ deeper, readers.IgnorePlaces) :
    IgnoresPlaces Condition.unplaced (comparison deeper) := by
  apply (ignoresPlaces_atom h).bind
  intro left
  apply ignoresPlaces_next?.bind
  intro next
  rw [id]
  cases next with
  | none => exact unplaces_pure rfl
  | some kind =>
    dsimp only
    cases comparison? kind with
    | none => exact unplaces_pure rfl
    | some op =>
      exact (ignoresPlaces_discard_expect kind).bind fun _ =>
        (ignoresPlaces_atom h).map fun _ => rfl

theorem ignoresPlaces_unary {deeper : Option Deeper}
    (h : ∀ readers ∈ deeper, readers.IgnorePlaces) :
    IgnoresPlaces Condition.unplaced (unary deeper) := by
  apply Unplaces.next?_ite
  · apply ignoresPlaces_descend
    intro readers hreaders
    exact (ignoresPlaces_symbol _).bind fun _ => (h readers hreaders).1.map fun _ => rfl
  · exact ignoresPlaces_comparison h

theorem unplaced_foldl_binary (op : Operator) (first : Condition) (others : List Condition) :
    (others.foldl (.binary op) first).unplaced =
      (others.map Condition.unplaced).foldl (.binary op) first.unplaced := by
  induction others generalizing first with
  | nil => rfl
  | cons other others ih => exact ih _

theorem Unplaces.chain {operand : Parser Condition} (h : IgnoresPlaces Condition.unplaced operand)
    (mark : Symbol) (op : Operator) : IgnoresPlaces Condition.unplaced (chain mark op operand) :=
  (h.separated mark).map fun operands =>
    (unplaced_foldl_binary op operands.1 operands.2).symm

theorem ignoresPlaces_disjunction {deeper : Option Deeper}
    (h : ∀ readers ∈ deeper, readers.IgnorePlaces) :
    IgnoresPlaces Condition.unplaced (disjunction deeper) :=
  ((ignoresPlaces_unary h).chain .both .and).chain .either .or

theorem ignorePlaces_deeper (depth : Nat) : ∀ readers ∈ deeper depth, readers.IgnorePlaces := by
  induction depth with
  | zero => nofun
  | succ depth ih =>
    rintro readers ⟨⟩
    exact ⟨ignoresPlaces_unary ih, ignoresPlaces_disjunction ih⟩

theorem ignoresPlaces_condition : IgnoresPlaces Condition.unplaced condition :=
  ignoresPlaces_disjunction (ignorePlaces_deeper _)

/-! ### Execution models and documents -/

theorem ignoresPlaces_transition : IgnoresPlaces Transition.unplaced transition := by
  have h : IgnoresPlaces (Prod.map Name.unplaced (Option.map Condition.unplaced)) (do
      symbol .arrow
      let target ← name
      let condition ← after? (.keyword .whenKw) condition
      return (target, condition)) :=
    (ignoresPlaces_symbol _).bind fun _ => ignoresPlaces_name.bind fun _ =>
      (ignoresPlaces_condition.after? _).map fun _ => rfl
  exact h.spanned.map fun _ => rfl

theorem ignoresPlaces_rule : IgnoresPlaces Rule.unplaced rule := by
  have h : IgnoresPlaces (Prod.map Reference.unplaced (List.map Transition.unplaced)) (do
      keyword .onKw
      let event ← qualified
      symbol .openBrace
      let transitions ← repeatWhile (· = some (.symbol .arrow)) transition
      symbol .closeBrace
      return (event, transitions)) :=
    (ignoresPlaces_keyword _).bind fun _ => ignoresPlaces_qualified.bind fun _ =>
      (ignoresPlaces_symbol _).bind fun _ => (ignoresPlaces_transition.repeatWhile _).bind fun _ =>
      (ignoresPlaces_symbol _).map fun _ => rfl
  exact h.spanned.map fun _ => rfl

theorem ignoresPlaces_executionMember :
    IgnoresPlaces ExecutionMember.unplaced executionMember := by
  apply ignoresPlaces_next?.bind
  intro next
  rw [id]
  split
  · exact (ignoresPlaces_keyword _).bind fun _ => (ignoresPlaces_keyword _).bind fun _ =>
      ignoresPlaces_qualified.map fun _ => rfl
  · exact (ignoresPlaces_keyword _).bind fun _ => ignoresPlaces_name.map fun _ => rfl
  · exact ignoresPlaces_rule.map fun _ => rfl
  · exact ignoresPlaces_reject _ _

theorem filterMap_unplaced (member? : ExecutionMember → Option β) (erase : β → β)
    (h : ∀ member, member?  member.unplaced = (member? member).map erase)
    (members : List ExecutionMember) :
    (members.map ExecutionMember.unplaced).filterMap member? =
      (members.filterMap member?).map erase := by
  rw [List.filterMap_map, List.map_filterMap]
  exact List.filterMap_congr fun member _ => h member

theorem unplaces_execution (imports : List ImportDeclaration) :
    Unplaces Execution.unplaced (execution imports)
      (execution (imports.map ImportDeclaration.unplaced)) := by
  refine (ignoresPlaces_executionMember.repeatWhile _).map fun members => ?_
  rw [filterMap_unplaced _ Reference.unplaced (by rintro ⟨⟩ <;> rfl),
    filterMap_unplaced _ Name.unplaced (by rintro ⟨⟩ <;> rfl),
    filterMap_unplaced _ Rule.unplaced (by rintro ⟨⟩ <;> rfl)]
  rfl

theorem ignoresPlaces_documentEnd : IgnoresPlaces id documentEnd := by
  apply ignoresPlaces_next?.bind
  intro next
  rw [id]
  split
  · exact ignoresPlaces_reject _ _
  · exact unplaces_pure rfl

theorem unplaces_contents (imports : List ImportDeclaration) :
    Unplaces Document.unplaced (contents imports)
      (contents (imports.map ImportDeclaration.unplaced)) := by
  apply ignoresPlaces_next?.bind
  intro next
  rw [id]
  split
  · exact (unplaces_platform imports).map fun _ => rfl
  · exact (unplaces_platform imports).map fun _ => rfl
  · exact (unplaces_library imports).map fun _ => rfl
  · exact (unplaces_execution imports).map fun _ => rfl

theorem ignoresPlaces_document : IgnoresPlaces Document.unplaced document := by
  apply (ignoresPlaces_importDeclaration.repeatWhile _).bind
  intro imports
  exact (unplaces_contents imports).bind fun _ => ignoresPlaces_documentEnd.map fun _ => rfl

end Parser

/-! ## Texts with the same words -/

theorem unplaced_ofText_congr {source other : String}
    (h : (Token.significant source).map Token.word = (Token.significant other).map Token.word) :
    (Cursor.ofText source).unplaced = (Cursor.ofText other).unplaced := by
  have hword (lexemes : List Lexeme) : lexemes.map Lexeme.unplaced =
      (lexemes.map Lexeme.word).map fun word => ⟨word.1, word.2, .zero⟩ := by
    rw [List.map_map]
    rfl
  simp only [Cursor.unplaced, Cursor.ofText, hword, map_word_ofText, h]

namespace Document

/-- The outcome of reading a document without its spans: the document, or why there is none. -/
def spanless (outcome : Except ParseError Document) : Except ParseFault Document :=
  (outcome.map Document.unplaced).mapError ParseError.fault

theorem ofLexemes_unplaced (cursor : Cursor) :
    ofLexemes cursor.unplaced =
      ((ofLexemes cursor).map Document.unplaced).mapError ParseError.unplaced := by
  have hempty : cursor.unplaced.rest.isEmpty = cursor.rest.isEmpty := List.isEmpty_map
  have hread := Parser.ignoresPlaces_document cursor
  unfold ofLexemes
  rw [hempty]
  split
  · rfl
  · rw [StateT.run, StateT.run, hread]
    cases Parser.document cursor <;> rfl

/-- Texts with the same words are read alike. -/
theorem spanless_parse_congr {source other : String}
    (h : (Token.significant source).map Token.word = (Token.significant other).map Token.word)
    (location : String) : spanless (parse source location) = spanless (parse other location) := by
  have hread (text : String) : spanless (parse text location) =
      ((ofLexemes (Cursor.ofText text).unplaced).map (relocate location)).mapError
        ParseError.fault := by
    rw [ofLexemes_unplaced, parse]
    cases ofLexemes (Cursor.ofText text) with
    | error error => rfl
    | ok document => exact congrArg Except.ok (unplaced_relocate document location)
  rw [hread, hread, unplaced_ofText_congr h]

/-- A text whose tokens are all valid can be laid out in any other way: it keeps its tokens, and it
is read as the same document up to spans, or rejected for the same reason. -/
theorem parse_of_laidOut {source other : String}
    (hvalid : ∀ token ∈ Token.significant source, token.kind ≠ .invalid)
    (hlayout : Token.LaidOut ((Token.significant source).map Token.text) other)
    (location : String) :
    (Token.significant other).map Token.word = (Token.significant source).map Token.word ∧
      spanless (parse other location) = spanless (parse source location) := by
  have hlexes : ∀ word ∈ (Token.significant source).map Token.word,
      Token.Lexes word.1 word.2.toList := by
    rw [List.forall_mem_map]
    intro token hmem
    exact Token.lexes_of_mem_significant hmem (hvalid token hmem)
  have htexts : ((Token.significant source).map Token.word).map Prod.snd =
      (Token.significant source).map Token.text := by
    rw [List.map_map]
    rfl
  rw [← htexts] at hlayout
  have hwords := Token.words_of_laidOut hlexes hlayout
  exact ⟨hwords, spanless_parse_congr hwords location⟩

/-- A state with a comment before it and another one before its name. -/
theorem parse_of_laidOut_state :
    (Token.significant "/* first */state// name\n\tready").map Token.word =
        (Token.significant "state ready").map Token.word ∧
      spanless (parse "/* first */state// name\n\tready" "here") =
        spanless (parse "state ready" "here") := by
  have hkinds : (Token.significant "state ready").map Token.kind =
      [.keyword .stateKw, .ident] := by
    decide +kernel
  have htexts : (Token.significant "state ready").map Token.text = ["state", "ready"] := by
    decide +kernel
  apply parse_of_laidOut
  · intro token hmem
    have hkind : token.kind ∈ [.keyword .stateKw, .ident] := hkinds ▸ List.mem_map_of_mem hmem
    rintro heq
    rw [heq] at hkind
    revert hkind
    decide
  · have hlead : Token.Separator ('/' :: '*' :: " first ".toList ++ '*' :: '/' :: []) :=
      .blockComment (by decide) .nil
    have hgap : Token.Separator ('/' :: '/' :: " name".toList ++ '\n' :: '\t' :: []) :=
      .lineComment (by decide) (.gap (by decide) .nil)
    rw [htexts]
    exact ⟨_, _, hlead, .cons hgap nofun (.cons .nil (fun _ => rfl) .nil), by decide⟩

end Document

end CrossModel
