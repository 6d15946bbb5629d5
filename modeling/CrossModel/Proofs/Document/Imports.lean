import CrossModel.Proofs.Document.Provenance
import CrossModel.Proofs.Token.Literals

/-!
# Imports in writing

The words of an import are a keyword, the kind, a quoted path and perhaps an alias. An import is
read from exactly these words, so what a text of one import is read as can be seen from its words.
There are two results. Every path and every alias can be written, if quotes and backslashes are
escaped. The short form of an import, which escapes nothing, is read back as the same import exactly
if its path holds neither of the two and its alias is an identifier.
-/

namespace CrossModel

open Grammar

/-! ## Words that are an import -/

theorem AliasWord.unique {name other : String} {word : Word} (h : AliasWord name word)
    (hother : AliasWord other word) : other = name := by
  cases h <;> cases hother <;> rfl

theorem AliasWords.unique {aliasName other : Option String} {phrase : List Word}
    (h : AliasWords aliasName phrase) (hother : AliasWords other phrase) : other = aliasName := by
  cases h with
  | none =>
    cases hother
    rfl
  | some hword =>
    cases hother with
    | some hword' => rw [hword.unique hword']

theorem AliasWords.mem_opt {aliasName : Option String} {phrase : List Word}
    (h : AliasWords aliasName phrase) : phrase ∈ opt (kw .asKw * (ident + string)) := by
  cases h with
  | none => exact Or.inl rfl
  | @some name opening word hword =>
    have hopening : [(.keyword .asKw, opening)] ∈ kw .asKw := ⟨opening, rfl⟩
    refine Or.inr (Language.append_mem_mul hopening ?_)
    cases hword with
    | name => exact Or.inl ⟨name, rfl⟩
    | quoted text => exact Or.inr ⟨text, rfl⟩

theorem DefinitionKind.keyword_inj {kind other : DefinitionKind}
    (h : kind.keyword = other.keyword) : kind = other := by
  cases kind <;> cases other <;> first | rfl | cases h

namespace ImportDeclaration.WrittenAs

variable {declaration other : ImportDeclaration} {phrase : List Word}

theorem mem_importForm (h : declaration.WrittenAs phrase) : phrase ∈ importForm := by
  obtain ⟨opening, kind, path, rest, rfl, -, halias⟩ := h
  have hopening : [(.keyword .importKw, opening)] ∈ kw .importKw := ⟨opening, rfl⟩
  have hkind : [(.keyword declaration.kind.keyword, kind)] ∈ kw .platformKw + kw .libraryKw := by
    cases declaration.kind with
    | platform => exact Or.inl ⟨kind, rfl⟩
    | library => exact Or.inr ⟨kind, rfl⟩
  have hpath : [(.string, path)] ∈ string := ⟨path, rfl⟩
  exact Language.append_mem_mul
    (Language.append_mem_mul (Language.append_mem_mul hopening hkind) hpath) halias.mem_opt

/-- The words determine everything of an import but its span. -/
theorem unique (h : declaration.WrittenAs phrase) (hother : other.WrittenAs phrase) :
    other = { declaration with span := other.span } := by
  obtain ⟨kind, path, aliasName, span⟩ := other
  obtain ⟨_, _, pathText, rest, hphrase, hpath, halias⟩ := h
  obtain ⟨_, _, _, _, rfl, hpath', halias'⟩ := hother
  simp only [List.cons.injEq, Prod.mk.injEq, TokenKind.keyword.injEq, true_and] at hphrase
  obtain ⟨-, ⟨hkind, -⟩, rfl, rfl⟩ := hphrase
  have hkinds : kind = declaration.kind := DefinitionKind.keyword_inj hkind
  have hpaths : path = declaration.path := hpath'.trans hpath.symm
  have haliases : aliasName = declaration.aliasName := halias.unique halias'
  rw [hkinds, hpaths, haliases]

end ImportDeclaration.WrittenAs

namespace Parser

theorem importDeclaration_of_writtenAs {declaration : ImportDeclaration} {lexemes : List Lexeme}
    (h : declaration.WrittenAs (lexemes.map Lexeme.word)) (passed finish : Position) :
    ∃ span stop, importDeclaration ⟨lexemes, passed, finish⟩ =
      .ok ({ declaration with span := span }, ⟨[], stop, finish⟩) := by
  have hnothing : oneOf [.keyword .asKw] (following []) = false := rfl
  obtain ⟨other, stop, hread⟩ :=
    reads_importDeclaration.complete passed finish h.mem_importForm hnothing
  obtain ⟨used, hused, -, hother⟩ := writtenAs_importDeclaration.of_ok hread
  have hsame : lexemes = used := List.append_cancel_right hused.rest
  have hvalue : other = { declaration with span := other.span } := h.unique (hsame ▸ hother)
  rw [List.append_nil, hvalue] at hread
  exact ⟨other.span, stop, hread⟩

/-- A text that is one import and nothing else is an execution model without members. -/
theorem document_of_importDeclaration {cursor : Cursor} {declaration : ImportDeclaration}
    {stop finish : Position} (hnext : cursor.next? = some (.keyword .importKw))
    (h : importDeclaration cursor = .ok (declaration, ⟨[], stop, finish⟩)) :
    Parser.document cursor = .ok (.execution { imports := [declaration] }, ⟨[], stop, finish⟩) := by
  have hless : ([] : List Lexeme).length < cursor.rest.length := by
    cases hrest : cursor.rest with
    | nil => simp [Cursor.next?, hrest] at hnext
    | cons lexeme rest => exact Nat.succ_pos _
  have himports : repeatWhile (· = some (.keyword .importKw)) importDeclaration cursor =
      .ok ([declaration], ⟨[], stop, finish⟩) :=
    repeatWhile_step (by simp [hnext]) h hless (repeatWhile_stop rfl)
  have hmembers : repeatWhile Option.isSome executionMember ⟨[], stop, finish⟩ =
      .ok ([], ⟨[], stop, finish⟩) := repeatWhile_stop rfl
  have hcontents : contents [declaration] ⟨[], stop, finish⟩ =
      .ok (.execution { imports := [declaration] }, ⟨[], stop, finish⟩) := by
    refine bind_eq_ok_iff.2 ⟨none, _, rfl, bind_eq_ok_iff.2 ⟨_, _, ?_, rfl⟩⟩
    exact bind_eq_ok_iff.2 ⟨[], _, hmembers, rfl⟩
  exact bind_eq_ok_iff.2 ⟨_, _, himports, bind_eq_ok_iff.2 ⟨_, _, hcontents, rfl⟩⟩

end Parser

/-- A text with the words of one import is read as this import. -/
theorem Document.parse_of_writtenAs {declaration : ImportDeclaration} {source : String}
    (h : declaration.WrittenAs (Token.words source.toList)) (location : String) :
    ∃ span, Document.parse source location =
      .ok (.execution { imports := [{ declaration with span := span }], location }) := by
  have hwords : (Lexeme.ofText source).map Lexeme.word = Token.words source.toList :=
    map_word_ofText source
  rw [← hwords] at h
  obtain ⟨span, stop, hread⟩ := Parser.importDeclaration_of_writtenAs h .zero
    ((LineIndex.ofText source).position source.utf8ByteSize)
  obtain ⟨_, _, _, _, hphrase, -⟩ := h
  obtain ⟨first, rest, hlexemes, hfirst, -⟩ := List.map_eq_cons_iff.1 hphrase
  have hnext : (Cursor.ofText source).next? = some (.keyword .importKw) := by
    rw [Cursor.next?, Cursor.ofText, hlexemes]
    exact congrArg some (congrArg Prod.fst hfirst)
  have hdocument := Parser.document_of_importDeclaration hnext hread
  have hsome : (Cursor.ofText source).rest.isEmpty = false := by
    rw [Cursor.ofText, hlexemes]
    rfl
  refine ⟨span, ?_⟩
  rw [parse, ofLexemes, hsome, StateT.run, hdocument]
  rfl

/-! ## Texts of imports -/

namespace Token

theorem words_keyword (keyword : Keyword) (cs : List Char) :
    words (keyword.text.toList ++ ' ' :: cs) = (.keyword keyword, keyword.text) :: words cs := by
  have hspace : Breaks (' ' :: cs) := by
    rintro _ ⟨⟩
    exact .inl (by decide)
  rw [words_lexeme (lexes_keyword keyword) hspace, words_gap (by decide), String.ofList_toList]

theorem words_import (kind : DefinitionKind) (cs : List Char) :
    words (("import " ++ kind.text ++ " ").toList ++ cs) =
      (.keyword .importKw, "import") :: (.keyword kind.keyword, kind.text) :: words cs := by
  have htext : kind.keyword.text = kind.text := by cases kind <;> rfl
  have hsplit : ("import " ++ kind.text ++ " ").toList ++ cs =
      Keyword.importKw.text.toList ++ ' ' :: (kind.keyword.text.toList ++ ' ' :: cs) := by
    cases kind <;> rfl
  rw [hsplit, words_keyword, words_keyword, htext]
  rfl

theorem words_as (cs : List Char) :
    words (" as ".toList ++ cs) = (.keyword .asKw, "as") :: words cs := by
  have hsplit : " as ".toList ++ cs = ' ' :: (Keyword.asKw.text.toList ++ ' ' :: cs) := rfl
  rw [hsplit, words_gap (by decide), words_keyword]
  rfl

end Token

/-- The text of an import: the opening, the path between quotes as it is, and what follows. -/
def importText (kind : DefinitionKind) (path suffix : List Char) : List Char :=
  ("import " ++ kind.text ++ " ").toList ++ '"' :: (path ++ '"' :: suffix)

/-- The text of an alias as it is, which may be missing. -/
def aliasText (written : Option String) : List Char :=
  match written with
  | some text => " as ".toList ++ text.toList
  | none => []

theorem aliasWords_aliasText {aliasName written : Option String}
    (h : Option.Rel (fun name text => ∃ word, AliasWord name word ∧
      Token.words text.toList = [word]) aliasName written) :
    AliasWords aliasName (Token.words (aliasText written)) := by
  cases h with
  | none =>
    rw [aliasText, Token.words_nil]
    exact .none
  | some htext =>
    obtain ⟨word, hword, hwords⟩ := htext
    rw [aliasText, Token.words_as, hwords]
    exact .some hword

theorem ImportDeclaration.writtenAs_importText {declaration : ImportDeclaration}
    {units suffix : List Char} (hunits : Quoted.Units units)
    (hpath : declaration.path = String.ofList (Quoted.decodeUnits units))
    (halias : AliasWords declaration.aliasName (Token.words suffix)) :
    declaration.WrittenAs (Token.words (importText declaration.kind units suffix)) := by
  rw [importText, Token.words_import, Token.words_units hunits]
  exact ⟨_, _, _, _, rfl, by rw [hpath, Quoted.decode_ofList], halias⟩

/-! ## Quoted imports -/

namespace ImportDeclaration

/-- The import with its path and its alias between quotes. -/
def quotedText (declaration : ImportDeclaration) : String :=
  "import " ++ declaration.kind.text ++ " " ++ Quoted.quoted declaration.path ++
    match declaration.aliasName with
    | some name => " as " ++ Quoted.quoted name
    | none => ""

theorem toList_quotedText (declaration : ImportDeclaration) :
    declaration.quotedText.toList = importText declaration.kind
      (Quoted.body (declaration.path.toList.map Quoted.Piece.of))
      (aliasText (declaration.aliasName.map Quoted.quoted)) := by
  rw [importText, ← Quoted.toList_literal_append, ← Quoted.quoted, quotedText]
  cases declaration.aliasName <;> simp [aliasText]

theorem writtenAs_quotedText (declaration : ImportDeclaration) :
    declaration.WrittenAs (Token.words declaration.quotedText.toList) := by
  rw [toList_quotedText]
  refine writtenAs_importText (Quoted.units_body _) ?_ (aliasWords_aliasText ?_)
  · rw [← Quoted.decode_ofList]
    exact (Quoted.decode_quoted declaration.path).symm
  · cases declaration.aliasName with
    | none => exact .none
    | some name =>
      have hword := AliasWord.quoted (Quoted.quoted name)
      have hwords := Token.words_literal (name.toList.map Quoted.Piece.of) []
      rw [Quoted.decode_quoted] at hword
      rw [List.append_nil, Token.words_nil] at hwords
      exact .some ⟨_, hword, hwords⟩

end ImportDeclaration

/-- A literal reaches to its closing quote, whatever follows, and stands for the characters that
its units stand for. So an import can have every path and every alias. -/
theorem Quoted.literals_decode_unit_by_unit :
    (∀ (pieces : List Piece) (behind : List Char) (offset : Nat),
      Token.scanFrom offset ((literal pieces).toList ++ behind) =
        { kind := .string, text := literal pieces, start := offset,
          stop := offset + (literal pieces).utf8ByteSize } ::
            Token.scanFrom (offset + (literal pieces).utf8ByteSize) behind ∧
      decode (literal pieces) = String.ofList (pieces.map Piece.value)) ∧
    ∀ (declaration : ImportDeclaration) (location : String), ∃ span,
      Document.parse declaration.quotedText location =
        .ok (.execution { imports := [{ declaration with span := span }], location }) := by
  refine ⟨fun pieces behind offset => ?_, fun declaration location => ?_⟩
  · exact ⟨Token.scanFrom_literal pieces behind offset, decode_literal pieces⟩
  · exact Document.parse_of_writtenAs declaration.writtenAs_quotedText location

/-! ## The short form of imports -/

/-- A word that is no keyword. -/
def IsIdentifier (text : String) : Prop :=
  Token.Matches .ident text.toList ∧ ∀ keyword : Keyword, text ≠ keyword.text

theorem lexes_ident_iff {text : String} :
    Token.Lexes .ident text.toList ↔ IsIdentifier text := by
  constructor
  · intro h
    generalize htext : text.toList = cs, hkind : TokenKind.ident = kind at h
    cases h with
    | word hc hcs =>
      refine ⟨htext ▸ .ident hc hcs, ?_⟩
      rintro keyword rfl
      rw [Token.wordKind_eq_keyword_iff.2 htext.symm] at hkind
      cases hkind
    | _ => cases hkind
  · rintro ⟨h, hkeyword⟩
    generalize htext : text.toList = cs at h
    cases h with
    | @ident c cs hc hcs =>
      rcases Token.wordKind_cases (c :: cs) with hkind | ⟨keyword, hkind⟩
      · exact hkind ▸ .word hc hcs
      · have hsame := htext.trans (Token.wordKind_eq_keyword_iff.1 hkind)
        exact absurd (String.toList_inj.1 hsame) (hkeyword keyword)

namespace Token

theorem exists_mem_of_mem_words {word : Word} {cs : List Char} (h : word ∈ words cs) :
    ∃ token ∈ scanFrom 0 cs, token.kind.isComment = false ∧ (token.kind, token.text) = word := by
  obtain ⟨token, htoken, hword⟩ := List.mem_map.1 h
  obtain ⟨hmem, hkind⟩ := List.mem_filter.1 htoken
  exact ⟨token, hmem, by simpa using hkind, hword⟩

theorem lexes_of_mem_words {kind : TokenKind} {text : String} {cs : List Char}
    (h : (kind, text) ∈ words cs) (hinvalid : kind ≠ .invalid) : Lexes kind text.toList := by
  obtain ⟨token, hmem, hcomment, hword⟩ := exists_mem_of_mem_words h
  cases hword
  exact lexes_of_mem_scanFrom hmem hcomment hinvalid

theorem length_le_of_mem_words {kind : TokenKind} {text : String} {cs : List Char}
    (h : (kind, text) ∈ words cs) : text.length ≤ cs.length := by
  obtain ⟨token, hmem, -, hword⟩ := exists_mem_of_mem_words h
  cases hword
  obtain ⟨before, rest, rfl, -⟩ := (tiles_scanFrom 0 cs).exists_split hmem
  rw [← String.length_toList]
  simp only [List.length_append]
  omega

end Token

namespace ImportDeclaration

theorem toList_display (declaration : ImportDeclaration) :
    declaration.display.toList = importText declaration.kind declaration.path.toList
      (aliasText declaration.key.aliasName) := by
  rw [importText, display]
  cases declaration.key.aliasName <;> simp [aliasText]

theorem writtenAs_display {declaration : ImportDeclaration}
    (hquote : '"' ∉ declaration.path.toList) (hslash : '\\' ∉ declaration.path.toList)
    (halias : ∀ name ∈ declaration.key.aliasName, IsIdentifier name) :
    ({ declaration with aliasName := declaration.key.aliasName } : ImportDeclaration).WrittenAs
      (Token.words declaration.display.toList) := by
  rw [toList_display]
  refine writtenAs_importText (Quoted.units_of_plain hquote hslash) ?_ (aliasWords_aliasText ?_)
  · rw [Quoted.decodeUnits_of_plain hslash, String.ofList_toList]
  · change Option.Rel _ declaration.key.aliasName declaration.key.aliasName
    revert halias
    cases declaration.key.aliasName with
    | none => exact fun _ => .none
    | some name =>
      intro halias
      have hwords := Token.words_lexeme (lexes_ident_iff.2 (halias name rfl)) .nil
      rw [List.append_nil, Token.words_nil, String.ofList_toList] at hwords
      exact .some ⟨_, .name name, hwords⟩

/-- The words of a text whose only import is this one start with the words of the import. -/
theorem exists_words_of_parse {source location : String} {document : Document}
    {declaration : ImportDeclaration} (h : Document.parse source location = .ok document)
    (himports : document.imports = [declaration]) :
    ∃ own body, Token.words source.toList = own ++ body ∧ declaration.WrittenAs own := by
  have hread := Document.readFrom_of_parse Parser.writtenAs_importDeclaration
    Parser.spells_transition.consumes h
  obtain ⟨front, body, hlexemes, hrow⟩ := hread.imports
  have hwords : (Lexeme.ofText source).map Lexeme.word = Token.words source.toList :=
    map_word_ofText source
  rw [himports] at hrow
  cases hrow with
  | cons hown hnone =>
    cases hnone
    rw [hlexemes, List.append_nil, List.map_append] at hwords
    exact ⟨_, _, hwords.symm, hown.2⟩

end ImportDeclaration

/-- An alias is not longer than a text that its word stands in, and shorter if it is quoted. -/
theorem AliasWord.length_le {name : String} {word : Word} {cs : List Char}
    (h : AliasWord name word) (hmem : word ∈ Token.words cs) : name.length ≤ cs.length ∧
      (cs.length ≤ name.length → word = (.ident, name)) := by
  cases h with
  | name => exact ⟨Token.length_le_of_mem_words hmem, fun _ => rfl⟩
  | quoted text =>
    have hword := Token.length_le_of_mem_words hmem
    have hnonempty : text ≠ "" := by
      rintro rfl
      obtain ⟨c, cs, hcons⟩ := (Token.lexes_of_mem_words hmem nofun).eq_cons
      cases hcons
    have hdecoded := Quoted.length_decode_lt hnonempty
    exact ⟨by omega, fun _ => by omega⟩

/-- What stands behind a quote in the text of an alias is shorter than the alias. -/
theorem length_lt_of_aliasText {name : String} {inner behind : List Char}
    (h : aliasText (some name) = inner ++ '"' :: behind) : behind.length < name.length := by
  rw [← String.length_toList]
  rcases List.append_eq_append_iff.1 h with ⟨between, -, hname⟩ | ⟨between, has, hrest⟩
  · rw [hname, List.length_append, List.length_cons]
    omega
  · cases between with
    | nil =>
      rw [List.nil_append] at hrest
      rw [← hrest, List.length_cons]
      omega
    | cons quote between =>
      have hquote : '"' ∈ " as ".toList := by
        rw [has, (List.cons.inj hrest).1]
        simp
      exact absurd hquote (by decide)

theorem ImportDeclaration.plain_of_parse_display {declaration other : ImportDeclaration}
    {location : String} {document : Document}
    (h : Document.parse declaration.display location = .ok document)
    (himports : document.imports = [other]) (hkey : other.key = declaration.key) :
    '"' ∉ declaration.path.toList ∧ '\\' ∉ declaration.path.toList ∧
      ∀ name ∈ declaration.key.aliasName, IsIdentifier name := by
  obtain ⟨own, body, hwords, _, _, _, rest, rfl, hpath, halias⟩ := exists_words_of_parse h himports
  rw [toList_display, importText, Token.words_import] at hwords
  have hquoted := (List.cons.inj (List.cons.inj hwords).2).2
  obtain ⟨units, behind, hunits, hsplit, rfl, hrest⟩ := Token.exists_units_of_words hquoted
  have hpaths : declaration.path.toList = Quoted.decodeUnits units := by
    have hsame : other.path = declaration.path := congrArg ImportKey.path hkey
    rw [← hsame, hpath, Quoted.decode_ofList, String.toList_ofList]
  -- The alias is one of the words behind the path, wherever the path ends.
  have hword : ∀ name ∈ declaration.key.aliasName, ∃ word,
      AliasWord name word ∧ word ∈ Token.words behind := by
    intro name hname
    have hother : other.aliasName = some name := by
      rw [← hkey] at hname
      exact (Option.mem_filter_iff.1 hname).1
    rw [hother] at halias
    cases halias with
    | some hword => exact ⟨_, hword, hrest ▸ by simp⟩
  rcases Quoted.plain_or_behind hunits hpaths hsplit with ⟨hquote, hslash, rfl⟩ | ⟨inner, hinner⟩
  · refine ⟨hquote, hslash, fun name hname => ?_⟩
    obtain ⟨word, hword, hmem⟩ := hword name hname
    rw [Option.mem_def.1 hname, aliasText, Token.words_as, List.mem_cons] at hmem
    have hown : word ∈ Token.words name.toList := by
      refine hmem.resolve_left ?_
      rintro rfl
      cases hword
    cases (hword.length_le hown).2 (String.length_toList).le
    exact lexes_ident_iff.1 (Token.lexes_of_mem_words hown nofun)
  · cases hname : declaration.key.aliasName with
    | none =>
      rw [hname, aliasText] at hinner
      simp at hinner
    | some name =>
      rw [hname] at hinner
      obtain ⟨word, hword, hmem⟩ := hword name hname
      have hshort := length_lt_of_aliasText hinner
      have hlong := (hword.length_le hmem).1
      omega

/-- The short form of an import is read as one import with the kind and the key of the first one
exactly if its path holds neither quotes nor backslashes and its alias, if any, is an identifier. -/
theorem ImportDeclaration.display_reads_back_iff (declaration : ImportDeclaration)
    (location : String) :
    (∃ document other, Document.parse declaration.display location = .ok document ∧
      document.imports = [other] ∧ other.kind = declaration.kind ∧ other.key = declaration.key) ↔
    '"' ∉ declaration.path.toList ∧ '\\' ∉ declaration.path.toList ∧
      ∀ name ∈ declaration.key.aliasName, IsIdentifier name := by
  constructor
  · rintro ⟨document, other, hparse, himports, -, hkey⟩
    exact plain_of_parse_display hparse himports hkey
  · rintro ⟨hquote, hslash, halias⟩
    obtain ⟨span, hparse⟩ :=
      Document.parse_of_writtenAs (writtenAs_display hquote hslash halias) location
    refine ⟨_, _, hparse, rfl, rfl, ?_⟩
    simp [key, ImportKey.of, effectiveAlias]

end CrossModel
