import CrossModel.Proofs.Document.Spelling

/-!
# The lexemes of each part of a document

For each part of a document there is one relation that says which lexemes spell it: where its names
and references stand, which form the lexemes have, and that its span covers them. Imports,
conditions and transitions have a second one, `WrittenAs`, that lists their lexemes one by one. Each
reader gives parts that are spelled by the lexemes it consumed. The main result is that a document
is spelled by all lexemes of its text.
-/

namespace CrossModel

open Grammar
open scoped Computability

/-! ## Names and references -/

/-- A name is one identifier. -/
def Name.SpelledBy (name : Name) (used : List Lexeme) : Prop :=
  ∃ lexeme, lexeme.kind = .ident ∧ used = [lexeme] ∧ name = ⟨lexeme.text, lexeme.span⟩

/-- The lexemes have the form, and the span covers them. -/
structure Span.SpelledBy (form : Form) (span : Span) (used : List Lexeme) : Prop where
  form : used.map Lexeme.word ∈ form
  covers : span.Covers used

/-- The dots are written as dots. -/
def DotsSpelled (used : List Lexeme) : Prop :=
  ∀ lexeme ∈ used, lexeme.kind = .symbol .dot → lexeme.text = "."

/-- A reference is made of identifiers with dots between them, and its text of their texts. -/
structure Reference.SpelledBy (reference : Reference) (used : List Lexeme) : Prop where
  span : reference.span.SpelledBy Grammar.qualified used
  text : DotsSpelled used → reference.text = String.join (used.map (·.text))

theorem Name.SpelledBy.covers {name : Name} {used : List Lexeme} (h : name.SpelledBy used) :
    name.span.Covers used := by
  obtain ⟨lexeme, -, rfl, rfl⟩ := h
  exact ⟨lexeme, rfl, lexeme, rfl, rfl⟩

theorem ident_le_qualified {phrase : List Word} (h : phrase ∈ ident) :
    phrase ∈ Grammar.qualified := by
  have hmul := Language.append_mem_mul h (Language.nil_mem_kstar (sym .dot * ident))
  rwa [List.append_nil] at hmul

/-- A single name can stand as a reference. -/
theorem Name.SpelledBy.reference {name : Name} {used : List Lexeme} (h : name.SpelledBy used) :
    Reference.SpelledBy ⟨name.text, name.span⟩ used := by
  refine ⟨⟨?_, h.covers⟩, fun _ => ?_⟩
  · obtain ⟨lexeme, hkind, rfl, -⟩ := h
    exact ident_le_qualified (Parser.map_word_mem_word.2 ⟨lexeme, rfl, hkind⟩)
  · obtain ⟨lexeme, -, rfl, rfl⟩ := h
    simp

theorem intercalate_dot (first : String) (others : List String) :
    ".".intercalate (first :: others) = first ++ String.join (others.map ("." ++ ·)) := by
  induction others generalizing first with
  | nil => simp
  | cons second others ih =>
    rw [String.intercalate_cons_cons, ih, List.map_cons, String.join_cons, String.append_assoc,
      String.append_assoc]

/-! ## Imports -/

def DefinitionKind.keyword : DefinitionKind → Keyword
  | platform => .platformKw
  | library => .libraryKw

/-- An alias is written as an identifier or as a quoted text. -/
inductive AliasWord : String → Word → Prop
  | name (text : String) : AliasWord text (.ident, text)
  | quoted (text : String) : AliasWord (Quoted.decode text) (.string, text)

/-- The words of an alias, which may be missing. -/
inductive AliasWords : Option String → List Word → Prop
  | none : AliasWords none []
  | some {name opening : String} {word : Word} (hword : AliasWord name word) :
      AliasWords (some name) [(.keyword .asKw, opening), word]

/-- The words of an import: `import`, the kind, the path and the alias. -/
def ImportDeclaration.WrittenAs (declaration : ImportDeclaration) (phrase : List Word) : Prop :=
  ∃ opening kind path rest, phrase = (.keyword .importKw, opening) ::
      (.keyword declaration.kind.keyword, kind) :: (.string, path) :: rest ∧
    declaration.path = Quoted.decode path ∧ AliasWords declaration.aliasName rest

/-! ## Platforms and libraries -/

structure Event.SpelledBy (event : Event) (used : List Lexeme) : Prop where
  name : Stands event.name.SpelledBy used
  parameters : ∀ parameter ∈ event.parameters, Stands parameter.SpelledBy used
  follows : ∀ reference ∈ event.follows, Stands reference.SpelledBy used

structure Provider.SpelledBy (provider : Provider) (used : List Lexeme) : Prop where
  name : Stands provider.name.SpelledBy used
  events : Stands (Row Event.SpelledBy provider.events) used

structure Platform.SpelledBy (platform : Platform) (used : List Lexeme) : Prop where
  name : Stands platform.name.SpelledBy used
  base : ∀ reference ∈ platform.base, Stands reference.SpelledBy used
  providers : Stands (Row Provider.SpelledBy platform.providers) used

structure Library.SpelledBy (library : Library) (used : List Lexeme) : Prop where
  name : Stands library.name.SpelledBy used
  events : Stands (Row Event.SpelledBy library.events) used

/-! ## Conditions and execution models -/

/-- The fields that a condition reads, from left to right. -/
def Condition.fields : Condition → List Name
  | literal _ => []
  | access _ field => field.toList
  | not inner => inner.fields
  | binary _ left right => left.fields ++ right.fields

/-- The mark that an operator is written with. -/
def Operator.mark : Operator → Symbol
  | and => .both
  | or => .either
  | eq => .equal
  | ne => .notEqual
  | lt => .less
  | le => .lessEqual
  | gt => .greater
  | ge => .greaterEqual

/-- An identifier as the reference that it is in a condition. -/
def Lexeme.reference (lexeme : Lexeme) : Reference :=
  ⟨lexeme.text, lexeme.span⟩

/-- How a condition is written. Parentheses leave no trace in the condition. -/
inductive Condition.WrittenAs : Condition → List Lexeme → Prop
  | literal {lexeme : Lexeme} (value : Literal)
      (hkind : lexeme.kind ∈ [.keyword .trueKw, .keyword .falseKw, .string, .integer]) :
      WrittenAs (.literal value) [lexeme]
  | event {target : Lexeme} (htarget : target.kind = .ident) :
      WrittenAs (.access target.reference none) [target]
  | field {target dot field : Lexeme} (htarget : target.kind = .ident)
      (hdot : dot.kind = .symbol .dot) (hfield : field.kind = .ident) :
      WrittenAs (.access target.reference (some ⟨field.text, field.span⟩)) [target, dot, field]
  | group {opening closing : Lexeme} {inner : Condition} {own : List Lexeme}
      (hopening : opening.kind = .symbol .openParen) (hinner : WrittenAs inner own)
      (hclosing : closing.kind = .symbol .closeParen) :
      WrittenAs inner (opening :: (own ++ [closing]))
  | not {mark : Lexeme} {inner : Condition} {own : List Lexeme} (hmark : mark.kind = .symbol .bang)
      (hinner : WrittenAs inner own) : WrittenAs (.not inner) (mark :: own)
  | binary {op : Operator} {mark : Lexeme} {left right : Condition} {front back : List Lexeme}
      (hleft : WrittenAs left front) (hmark : mark.kind = .symbol op.mark)
      (hright : WrittenAs right back) : WrittenAs (.binary op left right) (front ++ mark :: back)

structure Condition.SpelledBy (condition : Condition) (used : List Lexeme) : Prop where
  accesses : ∀ target ∈ condition.accesses, Stands target.SpelledBy used
  fields : ∀ field ∈ condition.fields, Stands field.SpelledBy used

/-- A transition is written with an arrow, its state and perhaps `when` and a condition. -/
structure Transition.WrittenAs (transition : Transition) (used : List Lexeme) : Prop where
  covers : transition.span.Covers used
  parts : ∃ arrow target rest, used = arrow :: target :: rest ∧ arrow.kind = .symbol .arrow ∧
    target.kind = .ident ∧ transition.state = target.reference ∧
    Parser.Optional (.keyword .whenKw) Condition.WrittenAs transition.condition rest

structure Transition.SpelledBy (transition : Transition) (used : List Lexeme) : Prop where
  span : transition.span.SpelledBy Grammar.transition used
  state : Stands transition.state.SpelledBy used
  condition : ∀ condition ∈ transition.condition, condition.SpelledBy used

/-- A rule is spelled by `on`, its event and its transitions one behind the other in braces. -/
structure Rule.SpelledBy (rule : Rule) (used : List Lexeme) : Prop where
  covers : rule.span.Covers used
  parts : ∃ opening event brace transitions closing,
    used = opening :: (event ++ brace :: (transitions ++ [closing])) ∧
    opening.kind = .keyword .onKw ∧ rule.event.SpelledBy event ∧
    brace.kind = .symbol .openBrace ∧ Row Transition.SpelledBy rule.transitions transitions ∧
    closing.kind = .symbol .closeBrace

def Parser.ExecutionMember.SpelledBy (used : List Lexeme) : ExecutionMember → Prop
  | provider reference => Stands reference.SpelledBy used
  | state name => Stands name.SpelledBy used
  | rule content => content.SpelledBy used

/-- An execution model is spelled by its members, which come in any order. -/
structure Execution.SpelledBy (model : Execution) (used : List Lexeme) : Prop where
  members : ∃ members : List Parser.ExecutionMember,
    Row (fun member used => member.SpelledBy used) members used ∧
    model.providers = members.filterMap (·.provider?) ∧
    model.states = members.filterMap (·.state?) ∧ model.rules = members.filterMap (·.rule?)

/-! ## Documents -/

/-- What stands behind the imports. -/
def Document.BodySpelledBy (used : List Lexeme) : Document → Prop
  | platform content => content.SpelledBy used
  | library content => content.SpelledBy used
  | execution content => content.SpelledBy used

/-- A document is spelled by its imports, one behind the other, and its body. -/
structure Document.SpelledBy (document : Document) (used : List Lexeme) : Prop where
  parts : ∃ imports body, used = imports ++ body ∧
    Row (fun declaration used => declaration.span.SpelledBy importForm used)
      document.imports imports ∧
    body.map Lexeme.word ∈ Grammar.platform + Grammar.library + Grammar.executionMember∗ ∧
    document.BodySpelledBy body

namespace Parser

/-! ## Readers of names and references -/

theorem spells_name : Spells name Name.SpelledBy :=
  (spells_expect .ident).bind_pure fun lexeme _ h => ⟨_, rfl, lexeme, h.2, h.1, rfl⟩

theorem join_of_marked {others : List Lexeme} {rest : List Lexeme}
    (h : Row (Marked .dot fun lexeme used => used = [lexeme] ∧ lexeme.kind = .ident) others rest)
    (hdots : DotsSpelled rest) :
    String.join (rest.map (·.text)) = String.join (others.map ("." ++ ·.text)) := by
  induction h with
  | nil => rfl
  | cons hitem hitems ih =>
    -- Each identifier brings its dot along, and the dot is written as one.
    obtain ⟨dot, _, hdot, rfl, rfl, -⟩ := hitem
    have htext : dot.text = "." := hdots dot (by simp) hdot
    have hrest := ih fun lexeme hlexeme => hdots lexeme (by simp [hlexeme])
    simp [String.join_cons, htext, hrest, String.append_assoc]

theorem spells_qualified : Spells Parser.qualified Reference.SpelledBy := by
  have hnames := ((spells_expect .ident).separated .dot).spanned (by
    rintro items used ⟨own, rest, rfl, ⟨rfl, -⟩, -⟩
    simp)
  have h : Spells Parser.qualified fun reference used => reference.span.Covers used ∧
      (DotsSpelled used → reference.text = String.join (used.map (·.text))) := by
    refine hnames.bind_pure fun answer used hanswer => ⟨_, rfl, hanswer.1, fun hdots => ?_⟩
    obtain ⟨own, rest, rfl, ⟨rfl, -⟩, hrest⟩ := hanswer.2
    have hjoin := join_of_marked hrest fun lexeme hlexeme => hdots lexeme (by simp [hlexeme])
    rw [List.map_cons, intercalate_dot, List.map_append, List.map_cons, List.map_nil,
      List.singleton_append, String.join_cons, hjoin, List.map_map]
    rfl
  exact (h.and_form reads_qualified).imp fun reference used hreference =>
    ⟨⟨hreference.1, hreference.2.1⟩, hreference.2.2⟩

theorem spells_quotedText : Spells quotedText fun value used =>
    ∃ lexeme, used = [lexeme] ∧ lexeme.kind = .string ∧ value = Quoted.decode lexeme.text :=
  (spells_expect .string).bind_pure fun lexeme _ h => ⟨_, rfl, lexeme, h.1, h.2, rfl⟩

theorem spells_parameters : Spells Parser.parameters fun parameters used =>
    ∀ parameter ∈ parameters, Stands parameter.SpelledBy used := by
  have h := (spells_name.listed .closeParen).after? (.symbol .openParen)
  refine h.bind_pure fun found used hfound => ⟨_, rfl, ?_⟩
  cases found with
  | none => nofun
  | some parameters =>
    intro parameter hparameter
    exact ((hfound parameters rfl).imp fun _ hpart => hpart parameter hparameter).flat

/-! ## Readers of imports -/

theorem spells_importKind : Spells importKind fun kind used =>
    ∃ lexeme, used = [lexeme] ∧ lexeme.kind = .keyword kind.keyword := by
  apply Spells.accept?_bind
  · intro lexeme hkind
    exact spells_pure ⟨lexeme, rfl, hkind⟩
  · apply Spells.accept?_bind
    · intro lexeme hkind
      exact spells_pure ⟨lexeme, rfl, hkind⟩
    · exact spells_reject _

theorem spells_aliasName : Spells aliasName fun name used =>
    ∃ lexeme, used = [lexeme] ∧ AliasWord name lexeme.word := by
  refine Spells.next?_bind fun next => ?_
  split
  · refine spells_quotedText.imp fun value used ⟨lexeme, hused, hkind, hvalue⟩ => ?_
    refine ⟨lexeme, hused, ?_⟩
    rw [hvalue, Lexeme.word, hkind]
    exact .quoted _
  · refine spells_name.bind_pure fun name used ⟨lexeme, hkind, hused, hname⟩ => ⟨_, rfl, ?_⟩
    refine ⟨lexeme, hused, ?_⟩
    rw [hname, Lexeme.word, hkind]
    exact .name _

theorem writtenAs_importDeclaration : Spells importDeclaration fun declaration used =>
    declaration.span.Covers used ∧ declaration.WrittenAs (used.map Lexeme.word) := by
  have hparts : Spells (do
      keyword .importKw
      let kind ← importKind
      let path ← quotedText
      let aliasName ← after? (.keyword .asKw) aliasName
      return (kind, path, aliasName)) fun answer used => used ≠ [] ∧ ∀ span,
        ImportDeclaration.WrittenAs ⟨answer.1, answer.2.1, answer.2.2, span⟩
          (used.map Lexeme.word) := by
    refine (spells_keyword .importKw).bind fun _ _ ⟨opening, hopening, himport⟩ => ?_
    refine spells_importKind.bind fun kind _ ⟨kindLexeme, hkindLexeme, hkind⟩ => ?_
    refine spells_quotedText.bind fun path _ ⟨pathLexeme, hpathLexeme, hstring, hpath⟩ => ?_
    refine (spells_aliasName.after?_optional _).bind_pure fun found used hfound => ⟨_, rfl, ?_⟩
    subst hopening hkindLexeme hpathLexeme
    have halias : AliasWords found (used.map Lexeme.word) := by
      cases hfound with
      | none => exact .none
      | some has hname =>
        obtain ⟨lexeme, rfl, hword⟩ := hname
        simp only [List.map_cons, List.map_nil, Lexeme.word, has]
        exact .some hword
    refine ⟨by simp, fun span => ⟨opening.text, kindLexeme.text, pathLexeme.text, _, ?_, hpath,
      halias⟩⟩
    simp only [List.map_cons, List.cons_append, List.nil_append, Lexeme.word, himport, hkind,
      hstring]
  exact (hparts.spanned fun _ _ hanswer => hanswer.1).bind_pure fun answer _ hanswer =>
    ⟨_, rfl, hanswer.1, hanswer.2.2 answer.2⟩

theorem spells_importDeclaration : Spells importDeclaration fun declaration used =>
    declaration.span.SpelledBy importForm used :=
  (writtenAs_importDeclaration.and_form reads_importDeclaration).imp fun _ _ hdeclaration =>
    ⟨hdeclaration.1, hdeclaration.2.1⟩

/-! ## Readers of platforms and libraries -/

theorem spells_event : Spells Parser.event Event.SpelledBy := by
  refine (spells_keyword .eventKw).bind fun _ _ _ => ?_
  refine spells_name.bind fun name own hname => ?_
  refine spells_parameters.bind_pure fun parameters used hparameters => ⟨_, rfl, ?_, ?_, nofun⟩
  · exact (Stands.self hname).front.back
  · intro parameter hparameter
    exact (hparameters parameter hparameter).back.back

theorem spells_provider : Spells Parser.provider Provider.SpelledBy := by
  have hevents := (spells_event.repeatWhile (· ≠ some (.symbol .closeBrace))).braced .nil
  refine (spells_keyword .providerKw).bind fun _ _ _ => ?_
  refine spells_name.bind fun name own hname => ?_
  refine hevents.bind_pure fun events used hused => ⟨_, rfl, ?_, hused.back.back⟩
  exact (Stands.self hname).front.back

theorem spells_platform (imports : List ImportDeclaration) :
    Spells (Parser.platform imports) fun platform used =>
      platform.imports = imports ∧ platform.SpelledBy used := by
  have hproviders := (spells_provider.repeatWhile (· ≠ some (.symbol .closeBrace))).braced .nil
  have hbase := spells_qualified.after? (.keyword .extendsKw)
  refine (consumes_accept? (.keyword .abstractKw)).bind fun _ _ _ => ?_
  refine (spells_keyword .platformKw).bind fun _ _ _ => ?_
  refine spells_name.bind fun name own hname => ?_
  refine hbase.bind fun base behind hbehind => ?_
  refine hproviders.bind_pure fun providers used hused => ⟨_, rfl, rfl, ?_, ?_, ?_⟩
  · exact (Stands.self hname).front.back.back
  · intro reference hreference
    exact (hbehind reference hreference).front.back.back.back
  · exact hused.back.back.back.back

theorem consumes_samplePhrases : Consumes Parser.samplePhrases := by
  have hphrases : Consumes (do
      symbol .openBrace
      listed .closeBrace quotedText) :=
    (spells_symbol .openBrace).bind fun _ _ _ => (spells_quotedText.listed _).consumes
  exact (hphrases.after? _).bind_pure fun _ _ _ => ⟨_, rfl, trivial⟩

theorem spells_intent : Spells Parser.intent Event.SpelledBy := by
  have hfollows := spells_qualified.after? (.keyword .followsKw)
  have hinputs := consumes_samplePhrases.braced trivial
  refine (spells_keyword .intentKw).bind fun _ _ _ => ?_
  refine spells_name.bind fun name own hname => ?_
  refine hfollows.bind fun follows behind hbehind => ?_
  refine spells_parameters.bind fun parameters listed hlisted => ?_
  refine hinputs.bind_pure fun inputs used _ => ⟨_, rfl, ?_, ?_, ?_⟩
  · exact (Stands.self hname).front.back
  · intro parameter hparameter
    exact (hlisted parameter hparameter).front.back.back.back
  · intro reference hreference
    exact (hbehind reference hreference).front.back.back

theorem spells_libraryMember : Spells libraryMember Event.SpelledBy := by
  refine Spells.next?_bind fun next => ?_
  split
  · exact spells_intent
  · exact spells_event

theorem spells_library (imports : List ImportDeclaration) :
    Spells (Parser.library imports) fun library used =>
      library.imports = imports ∧ library.SpelledBy used := by
  have hevents := (spells_libraryMember.repeatWhile startsLibraryMember).braced .nil
  refine (spells_keyword .libraryKw).bind fun _ _ _ => ?_
  refine spells_name.bind fun name own hname => ?_
  refine hevents.bind_pure fun events used hused => ⟨_, rfl, rfl, ?_, hused.back.back⟩
  exact (Stands.self hname).front.back

end Parser

/-! ## Readers of conditions -/

namespace Condition.SpelledBy

theorem within {condition : Condition} {used other : List Lexeme} (h : condition.SpelledBy used)
    (hused : used <:+: other) : condition.SpelledBy other where
  accesses target htarget := (h.accesses target htarget).within hused
  fields field hfield := (h.fields field hfield).within hused

theorem of_stands {condition : Condition} {used : List Lexeme}
    (h : Stands condition.SpelledBy used) : condition.SpelledBy used := by
  obtain ⟨part, hpart, hcondition⟩ := h
  exact hcondition.within hpart

theorem not {inner : Condition} {used : List Lexeme} (h : inner.SpelledBy used) :
    (Condition.not inner).SpelledBy used :=
  ⟨h.accesses, h.fields⟩

theorem binary {left right : Condition} {used : List Lexeme} (op : Operator)
    (hleft : left.SpelledBy used) (hright : right.SpelledBy used) :
    (Condition.binary op left right).SpelledBy used where
  accesses := List.forall_mem_append.2 ⟨hleft.accesses, hright.accesses⟩
  fields := List.forall_mem_append.2 ⟨hleft.fields, hright.fields⟩

end Condition.SpelledBy

namespace Condition.WrittenAs

/-- The events and fields of a condition stand among its lexemes. -/
theorem spelledBy {condition : Condition} {used : List Lexeme} (h : condition.WrittenAs used) :
    condition.SpelledBy used := by
  have hname {lexeme : Lexeme} (hkind : lexeme.kind = .ident) :
      Name.SpelledBy ⟨lexeme.text, lexeme.span⟩ [lexeme] := ⟨lexeme, hkind, rfl, rfl⟩
  induction h with
  | literal => exact ⟨nofun, nofun⟩
  | event htarget =>
    refine ⟨List.forall_mem_singleton.2 ?_, nofun⟩
    exact .self (hname htarget).reference
  | @field target dot field htarget hdot hfield =>
    refine ⟨List.forall_mem_singleton.2 ?_, List.forall_mem_singleton.2 ?_⟩
    · exact (Stands.self (hname htarget).reference).front
    · exact ((Stands.self (hname hfield)).behind dot).behind target
  | group hopening hinner hclosing ih => exact .of_stands ((Stands.self ih).front.behind _)
  | not hmark hinner ih => exact .not (.of_stands ((Stands.self ih).behind _))
  | binary hleft hmark hright ihleft ihright =>
    refine .binary _ (.of_stands (Stands.self ihleft).front) (.of_stands ?_)
    exact ((Stands.self ihright).behind _).back

/-- Operands that are grouped from the left are written one behind the other. -/
theorem foldl {op : Operator} {first : Condition} {others : List Condition}
    {own rest : List Lexeme} (hfirst : first.WrittenAs own)
    (hothers : Row (Parser.Marked op.mark WrittenAs) others rest) :
    (others.foldl (.binary op) first).WrittenAs (own ++ rest) := by
  induction hothers generalizing first own with
  | nil =>
    rw [List.append_nil]
    exact hfirst
  | cons hitem hitems ih =>
    obtain ⟨mark, operand, hmark, rfl, hoperand⟩ := hitem
    rw [← List.append_assoc]
    exact ih (.binary hfirst hmark hoperand)

end Condition.WrittenAs

namespace Parser

theorem spells_accessed : Spells accessed Condition.WrittenAs := by
  refine spells_name.bind fun target own ⟨lexeme, hkind, hown, htarget⟩ => ?_
  refine (spells_name.after?_optional _).bind_pure fun found used hfound => ⟨_, rfl, ?_⟩
  subst hown htarget
  cases hfound with
  | none => exact .event hkind
  | some hdot hname =>
    obtain ⟨field, hfield, rfl, rfl⟩ := hname
    exact .field hkind hdot hfield

theorem spells_integer : Spells Parser.integer fun _ used =>
    ∃ lexeme, used = [lexeme] ∧ lexeme.kind = .integer := by
  refine (spells_expect .integer).bind fun lexeme _ ⟨hused, hkind⟩ => ?_
  dsimp only
  split
  · exact spells_pure ⟨lexeme, by rw [hused, List.append_nil], hkind⟩
  · exact ⟨fun hread => nomatch hread⟩

theorem Spells.descend {deeper : Option Deeper} {inner : Deeper → Parser Condition}
    {relates : Condition → List Lexeme → Prop}
    (h : ∀ readers ∈ deeper, Spells (inner readers) relates) :
    Spells (Parser.descend deeper inner) relates := by
  cases deeper with
  | none => exact ⟨fun hread => nomatch hread⟩
  | some readers => exact h readers rfl

theorem spells_atom {deeper : Option Deeper}
    (h : ∀ readers ∈ deeper, Spells readers.disjunction Condition.WrittenAs) :
    Spells (Parser.atom deeper) Condition.WrittenAs := by
  refine Spells.next?_bind fun next => ?_
  split
  · refine (spells_keyword .trueKw).bind_pure fun _ used ⟨lexeme, hused, hkind⟩ => ⟨_, rfl, ?_⟩
    exact hused ▸ .literal _ (by simp [hkind])
  · refine (spells_keyword .falseKw).bind_pure fun _ used ⟨lexeme, hused, hkind⟩ => ⟨_, rfl, ?_⟩
    exact hused ▸ .literal _ (by simp [hkind])
  · refine spells_quotedText.bind_pure fun _ used ⟨lexeme, hused, hkind, _⟩ => ⟨_, rfl, ?_⟩
    exact hused ▸ .literal _ (by simp [hkind])
  · refine spells_integer.bind_pure fun _ used ⟨lexeme, hused, hkind⟩ => ⟨_, rfl, ?_⟩
    exact hused ▸ .literal _ (by simp [hkind])
  · refine Spells.descend fun readers hreaders => ?_
    refine (spells_symbol .openParen).bind fun _ _ ⟨opening, hopening, hopen⟩ => ?_
    refine (h readers hreaders).bind fun inner own hinner => ?_
    refine (spells_symbol .closeParen).bind_pure fun _ _ ⟨closing, hclosing, hclose⟩ => ?_
    subst hopening hclosing
    exact ⟨_, rfl, .group hopen hinner hclose⟩
  · exact spells_accessed
  · exact spells_reject _

theorem symbol_mark_of_comparison? {kind : TokenKind} {op : Operator}
    (h : comparison? kind = some op) : kind = .symbol op.mark := by
  unfold comparison? at h
  split at h <;> cases h <;> rfl

theorem spells_comparison {deeper : Option Deeper}
    (h : Spells (Parser.atom deeper) Condition.WrittenAs) :
    Spells (Parser.comparison deeper) Condition.WrittenAs := by
  refine h.bind fun left front hleft => ?_
  have halone : left.WrittenAs (front ++ []) := (List.append_nil front).symm ▸ hleft
  refine Spells.next?_bind fun next => ?_
  split
  · exact spells_pure halone
  · split
    · exact spells_pure halone
    · next op hop =>
      refine (spells_discard_expect _).bind fun _ _ ⟨mark, hmark, hkind⟩ => ?_
      refine h.bind_pure fun right back hright => ⟨_, rfl, ?_⟩
      subst hmark
      exact .binary hleft (hkind.trans (symbol_mark_of_comparison? hop)) hright

theorem spells_unary {deeper : Option Deeper}
    (hunary : ∀ readers ∈ deeper, Spells readers.unary Condition.WrittenAs)
    (hdisjunction : ∀ readers ∈ deeper, Spells readers.disjunction Condition.WrittenAs) :
    Spells (Parser.unary deeper) Condition.WrittenAs := by
  refine Spells.next?_bind fun next => ?_
  split
  · refine Spells.descend fun readers hreaders => ?_
    refine (spells_symbol .bang).bind fun _ _ ⟨mark, hmark, hkind⟩ => ?_
    subst hmark
    exact (hunary readers hreaders).bind_pure fun inner _ hinner => ⟨_, rfl, .not hkind hinner⟩
  · exact spells_comparison (spells_atom hdisjunction)

theorem Spells.chain {operand : Parser Condition} (h : Spells operand Condition.WrittenAs)
    (op : Operator) : Spells (Parser.chain op.mark op operand) Condition.WrittenAs := by
  refine (h.separated op.mark).bind_pure fun items used hitems => ⟨_, rfl, ?_⟩
  obtain ⟨own, rest, rfl, hfirst, hothers⟩ := hitems
  exact hfirst.foldl hothers

theorem Spells.disjunction {deeper : Option Deeper}
    (h : Spells (Parser.unary deeper) Condition.WrittenAs) :
    Spells (Parser.disjunction deeper) Condition.WrittenAs :=
  (h.chain .and).chain .or

/-- By induction on how deep conditions may still be nested. -/
theorem spells_unary_deeper (depth : Nat) :
    Spells (Parser.unary (deeper depth)) Condition.WrittenAs := by
  induction depth with
  | zero => exact spells_unary nofun nofun
  | succ depth ih =>
    apply spells_unary
    · rintro _ ⟨⟩
      exact ih
    · rintro _ ⟨⟩
      exact ih.disjunction

theorem spells_condition : Spells Parser.condition Condition.WrittenAs :=
  (spells_unary_deeper nestingLimit).disjunction

/-! ## Readers of execution models -/

theorem writtenAs_transition : Spells Parser.transition Transition.WrittenAs := by
  have hparts : Spells (do
      symbol .arrow
      let target ← name
      let condition ← after? (.keyword .whenKw) Parser.condition
      return (target, condition)) fun answer used => ∃ arrow target rest,
        used = arrow :: target :: rest ∧ arrow.kind = .symbol .arrow ∧ target.kind = .ident ∧
        answer.1 = ⟨target.text, target.span⟩ ∧
        Optional (.keyword .whenKw) Condition.WrittenAs answer.2 rest := by
    refine (spells_symbol .arrow).bind fun _ _ ⟨arrow, harrow, harrowKind⟩ => ?_
    refine spells_name.bind fun _ _ ⟨target, htargetKind, htarget, hname⟩ => ?_
    refine (spells_condition.after?_optional _).bind_pure fun _ rest hrest => ⟨_, rfl, ?_⟩
    subst harrow htarget
    exact ⟨arrow, target, rest, rfl, harrowKind, htargetKind, hname, hrest⟩
  refine (hparts.spanned ?_).bind_pure fun answer used ⟨hcovers, hanswer⟩ => ⟨_, rfl, hcovers, ?_⟩
  · rintro answer used ⟨arrow, target, rest, rfl, -⟩
    simp
  · obtain ⟨arrow, target, rest, hused, harrow, htarget, hname, hrest⟩ := hanswer
    rw [hname]
    exact ⟨arrow, target, rest, hused, harrow, htarget, rfl, hrest⟩

theorem spells_transition : Spells Parser.transition Transition.SpelledBy := by
  refine (writtenAs_transition.and_form reads_transition).imp fun transition used h => ?_
  obtain ⟨hform, hcovers, arrow, target, rest, rfl, -, htarget, hstate, hrest⟩ := h
  refine ⟨⟨hform, hcovers⟩, ?_, fun condition hcondition => ?_⟩
  · have hname : Name.SpelledBy ⟨target.text, target.span⟩ [target] := ⟨target, htarget, rfl, rfl⟩
    rw [hstate]
    exact (Stands.self hname.reference).front.behind arrow
  · rw [Option.mem_def.1 hcondition] at hrest
    cases hrest with
    | @some guard _ own hguard hwritten =>
      have hstands := (Stands.self hwritten.spelledBy).behind guard
      exact .of_stands ((hstands.behind target).behind arrow)

/-- A rule, whatever its transitions are known to be read from. -/
theorem Spells.rule {ofTransition : Transition → List Lexeme → Prop}
    (h : Spells Parser.transition ofTransition) :
    Spells Parser.rule fun rule used => rule.span.Covers used ∧
      ∃ opening event brace transitions closing,
        used = opening :: (event ++ brace :: (transitions ++ [closing])) ∧
        opening.kind = .keyword .onKw ∧ rule.event.SpelledBy event ∧
        brace.kind = .symbol .openBrace ∧ Row ofTransition rule.transitions transitions ∧
        closing.kind = .symbol .closeBrace := by
  have hparts : Spells (do
      keyword .onKw
      let event ← Parser.qualified
      symbol .openBrace
      let transitions ← Parser.repeatWhile (· = some (.symbol .arrow)) Parser.transition
      symbol .closeBrace
      return (event, transitions)) fun answer used =>
        ∃ opening event brace transitions closing,
          used = opening :: (event ++ brace :: (transitions ++ [closing])) ∧
          opening.kind = .keyword .onKw ∧ answer.1.SpelledBy event ∧
          brace.kind = .symbol .openBrace ∧ Row ofTransition answer.2 transitions ∧
          closing.kind = .symbol .closeBrace := by
    refine (spells_keyword .onKw).bind fun _ _ ⟨opening, hopening, hon⟩ => ?_
    refine spells_qualified.bind fun event own hevent => ?_
    refine (spells_symbol .openBrace).bind fun _ _ ⟨brace, hbrace, hopen⟩ => ?_
    refine (h.repeatWhile _).bind fun transitions used htransitions => ?_
    refine (spells_symbol .closeBrace).bind_pure fun _ _ ⟨closing, hclosing, hclose⟩ => ?_
    subst hopening hbrace hclosing
    exact ⟨_, rfl, opening, own, brace, used, closing, rfl, hon, hevent, hopen, htransitions,
      hclose⟩
  refine (hparts.spanned ?_).bind_pure fun _ _ hanswer => ⟨_, rfl, hanswer⟩
  rintro answer used ⟨opening, event, brace, transitions, closing, rfl, -⟩
  simp

theorem spells_rule : Spells Parser.rule Rule.SpelledBy :=
  spells_transition.rule.imp fun _ _ hrule => ⟨hrule.1, hrule.2⟩

theorem spells_executionMember :
    Spells Parser.executionMember fun member used => member.SpelledBy used := by
  refine Spells.next?_bind fun next => ?_
  split
  · refine (spells_keyword .useKw).bind fun _ _ _ => ?_
    refine (spells_keyword .providerKw).bind fun _ _ _ => ?_
    exact spells_qualified.bind_pure fun _ _ hreference =>
      ⟨_, rfl, (Stands.self hreference).back.back⟩
  · refine (spells_keyword .stateKw).bind fun _ _ _ => ?_
    exact spells_name.bind_pure fun _ _ hname => ⟨_, rfl, (Stands.self hname).back⟩
  · exact spells_rule.bind_pure fun _ _ hrule => ⟨_, rfl, hrule⟩
  · exact spells_reject _

theorem spells_execution (imports : List ImportDeclaration) :
    Spells (execution imports) fun model used =>
      model.imports = imports ∧ model.SpelledBy used :=
  (spells_executionMember.repeatWhile _).bind_pure fun members _ hmembers =>
    ⟨_, rfl, rfl, ⟨members, hmembers, rfl, rfl, rfl⟩⟩

/-! ## Readers of documents -/

theorem spells_contents (imports : List ImportDeclaration) :
    Spells (contents imports) fun document used =>
      document.imports = imports ∧ document.BodySpelledBy used := by
  refine Spells.next?_bind fun next => ?_
  split
  · exact (spells_platform imports).bind_pure fun _ _ h => ⟨_, rfl, h⟩
  · exact (spells_platform imports).bind_pure fun _ _ h => ⟨_, rfl, h⟩
  · exact (spells_library imports).bind_pure fun _ _ h => ⟨_, rfl, h⟩
  · exact (spells_execution imports).bind_pure fun _ _ h => ⟨_, rfl, h⟩

theorem spells_imports_contents :
    Spells (repeatWhile (· = some (.keyword .importKw)) importDeclaration >>= contents)
      Document.SpelledBy := by
  refine (spells_importDeclaration.repeatWhile _).bind fun imports front himports => ?_
  refine ((spells_contents imports).and_form (reads_contents imports)).imp ?_
  rintro document body ⟨hform, rfl, hbody⟩
  exact ⟨front, body, rfl, himports, hform, hbody⟩

/-- Where imports and contents are related to the lexemes that they are read from, a document is
related to all lexemes. -/
theorem relates_of_document {relates : Document → List Lexeme → Prop}
    (hspells : Spells (repeatWhile (· = some (.keyword .importKw)) importDeclaration >>= contents)
      relates)
    {cursor ahead : Cursor} {document : Document}
    (h : Parser.document cursor = .ok (document, ahead)) : relates document cursor.rest := by
  have hassoc : Parser.document =
      (repeatWhile (· = some (.keyword .importKw)) importDeclaration >>= contents) >>=
        fun document => documentEnd >>= fun _ => pure document :=
    (bind_assoc _ _ _).symm
  rw [hassoc] at h
  obtain ⟨content, between, hcontent, hread⟩ := bind_eq_ok_iff.1 h
  obtain ⟨_, _, hend, hread⟩ := bind_eq_ok_iff.1 hread
  cases hread
  obtain ⟨used, hused, hrelates⟩ := hspells.of_ok hcontent
  rw [hused.rest, rest_eq_nil_of_documentEnd hend, List.append_nil]
  exact hrelates

end Parser

theorem Document.exists_content_of_parse {relates : Document → List Lexeme → Prop}
    (hspells : Parser.Spells (Parser.repeatWhile (· = some (.keyword .importKw))
      Parser.importDeclaration >>= Parser.contents) relates)
    {source location : String} {document : Document}
    (h : Document.parse source location = .ok document) :
    ∃ content : Document, document = content.relocate location ∧
      relates content (Lexeme.ofText source) := by
  rw [parse, ofLexemes] at h
  split at h
  · cases h
  · change ((Parser.document (Cursor.ofText source)).map _).map _ = _ at h
    cases hread : Parser.document (Cursor.ofText source) with
    | error error =>
      rw [hread] at h
      cases h
    | ok result =>
      rw [hread] at h
      cases h
      exact ⟨result.1, rfl, Parser.relates_of_document hspells hread⟩

theorem Document.SpelledBy.relocate {document : Document} {used : List Lexeme}
    (h : document.SpelledBy used) (location : String) :
    (document.relocate location).SpelledBy used := by
  obtain ⟨imports, body, hused, himports, hform, hbody⟩ := h.parts
  cases document with
  | platform content =>
    exact ⟨imports, body, hused, himports, hform, ⟨hbody.name, hbody.base, hbody.providers⟩⟩
  | library content => exact ⟨imports, body, hused, himports, hform, ⟨hbody.name, hbody.events⟩⟩
  | execution content => exact ⟨imports, body, hused, himports, hform, ⟨hbody.members⟩⟩

/-- A document that was read from a text is spelled by the lexemes of the text. -/
theorem Document.spelledBy_of_parse {source location : String} {document : Document}
    (h : Document.parse source location = .ok document) :
    document.SpelledBy (Lexeme.ofText source) := by
  obtain ⟨content, rfl, hcontent⟩ := exists_content_of_parse Parser.spells_imports_contents h
  exact hcontent.relocate location

end CrossModel
