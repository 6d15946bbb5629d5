import CrossModel.Token.Scan

/-!
# Tokens and the space between them

`Lexes` says which texts are lexemes of a kind, without reference to what stands behind them. A
lexeme is found wherever it stands before the end of the text, a gap or a comment, because none of
these can make it longer. So a text can be laid out in any way: as long as something separates its
lexemes, its tokens are the same.
-/

namespace CrossModel.Token

/-! ## Lexemes -/

/-- The texts of words, integers, strings and symbols. -/
inductive Lexes : TokenKind → List Char → Prop
  | word {c : Char} {cs : List Char} (hc : isWordStart c = true)
      (hcs : ∀ d ∈ cs, isWordChar d = true) : Lexes (wordKind (c :: cs)) (c :: cs)
  | integer {c : Char} {cs : List Char} (hc : isDigit c = true)
      (hcs : ∀ d ∈ cs, isDigit d = true) : Lexes .integer (c :: cs)
  | string {cs : List Char} (hcs : Quoted.measure cs = (cs.length, true)) :
      Lexes .string ('"' :: cs)
  | symbol (mark : Symbol) : Lexes (.symbol mark) mark.chars

theorem lexes_of_wordKind {kind : TokenKind} {text : List Char} (hkind : wordKind text = kind)
    (hstart : text.head?.any isWordStart = true) (hchars : text.all isWordChar = true) :
    Lexes kind text := by
  subst hkind
  cases text with
  | nil => cases hstart
  | cons c cs =>
    exact .word hstart fun d hd => List.all_eq_true.1 hchars d (List.mem_cons_of_mem c hd)

theorem lexes_keyword (keyword : Keyword) : Lexes (.keyword keyword) keyword.text.toList := by
  cases keyword <;> exact lexes_of_wordKind (by decide) (by decide) (by decide)

theorem lexes_symbol (mark : Symbol) :
    Lexes (.symbol mark) (String.ofList mark.chars).toList := by
  rw [String.toList_ofList]
  exact .symbol mark

theorem lexes_ident : Lexes .ident "name".toList :=
  lexes_of_wordKind (by decide) (by decide) (by decide)

theorem lexes_string : Lexes .string "\"\"".toList :=
  .string (by decide)

theorem lexes_integer : Lexes .integer "0".toList :=
  .integer (by decide) nofun

theorem Lexes.ne_invalid {kind : TokenKind} {text : List Char} (h : Lexes kind text) :
    kind ≠ .invalid := by
  cases h with
  | word hc hcs =>
    unfold wordKind
    split <;> nofun
  | _ => nofun

/-- What stands behind a lexeme does not belong to it: nothing, a gap or a comment. -/
def Breaks (rest : List Char) : Prop :=
  ∀ c ∈ rest.head?, isGap c = true ∨ c = '/'

theorem Breaks.nil : Breaks [] := nofun

theorem isWordChar_of_breaks {c : Char} (h : isGap c = true ∨ c = '/') : isWordChar c = false := by
  simp only [isGap, Bool.or_eq_true, beq_iff_eq] at h
  rcases h with ((((rfl | rfl) | rfl) | rfl) | rfl) | rfl <;> decide

theorem isDigit_of_breaks {c : Char} (h : isGap c = true ∨ c = '/') : isDigit c = false := by
  have hword := isWordChar_of_breaks h
  simp only [isWordChar, Bool.or_eq_false_iff] at hword
  exact hword.2

/-- A run of characters of a class ends where nothing of this class follows. -/
theorem takeWhile_append_of_breaks {p : Char → Bool} {cs rest : List Char}
    (hcs : ∀ d ∈ cs, p d = true) (hp : ∀ c, isGap c = true ∨ c = '/' → p c = false)
    (hrest : Breaks rest) : (cs ++ rest).takeWhile p = cs := by
  rw [List.takeWhile_append_of_pos hcs]
  cases rest with
  | nil => simp
  | cons c rest => simp [hp c (hrest c rfl)]

theorem isWordStart_of_isDigit {c : Char} (h : isDigit c = true) : isWordStart c = false := by
  simp only [isDigit, decide_eq_true_eq, Char.le_def, UInt32.le_iff_toNat_le] at h
  simp only [isWordStart, Bool.or_eq_false_iff, decide_eq_false_iff_not, Char.le_def,
    UInt32.le_iff_toNat_le, beq_eq_false_iff_ne]
  have hdigits : ('0'.val.toNat = 48) ∧ '9'.val.toNat = 57 := by decide
  have hletters : 'a'.val.toNat = 97 ∧ 'A'.val.toNat = 65 := by decide
  refine ⟨⟨by omega, by omega⟩, ?_⟩
  rintro rfl
  revert h
  decide

/-! ## Strings -/

theorem measure_cons {c : Char} (hquote : c ≠ '"') (hslash : c ≠ '\\') (cs : List Char) :
    Quoted.measure (c :: cs) = ((Quoted.measure cs).1 + 1, (Quoted.measure cs).2) := by
  simp [Quoted.measure, hslash]

theorem measure_escape {c : Char} (hc : c ≠ '\n') (cs : List Char) :
    Quoted.measure ('\\' :: c :: cs) = ((Quoted.measure cs).1 + 2, (Quoted.measure cs).2) := by
  simp [Quoted.measure, hc]

/-- A string ends at its closing quote, whatever stands behind it. -/
theorem measure_take_append {cs : List Char} {length : Nat}
    (h : Quoted.measure cs = (length, true)) :
    length ≤ cs.length ∧
      ∀ rest, Quoted.measure (cs.take length ++ rest) = (length, true) := by
  induction cs using Quoted.measure.induct generalizing length with
  | case1 => cases h
  | case2 tail =>
    cases h
    exact ⟨Nat.succ_pos _, fun rest => rfl⟩
  | case3 => cases h
  | case4 tail => cases h
  | case5 c tail hc ih =>
    rw [measure_escape hc] at h
    obtain ⟨rfl, htrue⟩ := Prod.mk.inj h
    obtain ⟨hle, hmeasure⟩ := ih (Prod.ext rfl htrue)
    refine ⟨by simpa using hle, fun rest => ?_⟩
    rw [List.take_succ_cons, List.take_succ_cons, List.cons_append, List.cons_append,
      measure_escape hc, hmeasure]
  | case6 c tail hquote hlone hpair ih =>
    have hslash : c ≠ '\\' := by
      rintro rfl
      cases tail with
      | nil => exact hlone rfl rfl
      | cons d tail => exact hpair d tail rfl rfl
    rw [measure_cons hquote hslash] at h
    obtain ⟨rfl, htrue⟩ := Prod.mk.inj h
    obtain ⟨hle, hmeasure⟩ := ih (Prod.ext rfl htrue)
    refine ⟨by simpa using hle, fun rest => ?_⟩
    rw [List.take_succ_cons, List.cons_append, measure_cons hquote hslash, hmeasure]

/-! ## Symbols -/

theorem atStart?_append_of_breaks (mark : Symbol) {rest : List Char} (hrest : Breaks rest) :
    Symbol.atStart? (mark.chars ++ rest) = some mark := by
  cases rest with
  | nil => cases mark <;> decide
  | cons c rest =>
    have hc : '=' ≠ c := by
      rintro rfl
      exact absurd (hrest '=' rfl) (by decide)
    cases mark <;> simp [Symbol.atStart?, Symbol.all, Symbol.chars, List.isPrefixOf, hc]

theorem chars_eq_take_of_atStart? {mark : Symbol} {c : Char} {cs : List Char}
    (h : Symbol.atStart? (c :: cs) = some mark) :
    mark.chars = c :: cs.take (mark.chars.length - 1) := by
  have hfound := List.find?_some h
  have hprefix : mark.chars <+: c :: cs := List.isPrefixOf_iff_prefix.1 hfound
  have htake := List.prefix_iff_eq_take.1 hprefix
  have hpositive : mark.chars.length = mark.chars.length - 1 + 1 := by
    cases mark <;> rfl
  rw [hpositive, List.take_succ_cons] at htake
  exact htake

/-! ## Finding lexemes -/

/-- A lexeme is found before a gap, a comment and the end of the text. -/
theorem lexemeAt_of_lexes {kind : TokenKind} {c : Char} {cs rest : List Char}
    (h : Lexes kind (c :: cs)) (hrest : Breaks rest) :
    lexemeAt c (cs ++ rest) = (kind, cs.length) := by
  generalize htext : c :: cs = text at h
  cases h with
  | word hc hcs =>
    cases htext
    have htail := takeWhile_append_of_breaks hcs (fun _ => isWordChar_of_breaks) hrest
    simp only [lexemeAt, hc, if_true, htail]
  | integer hc hcs =>
    cases htext
    have htail := takeWhile_append_of_breaks hcs (fun _ => isDigit_of_breaks) hrest
    simp [lexemeAt, hc, isWordStart_of_isDigit hc, htail]
  | string hcs =>
    cases htext
    have hmeasure := (measure_take_append hcs).2 rest
    rw [List.take_length] at hmeasure
    have hstart : isWordStart '"' = false := by decide
    have hdigit : isDigit '"' = false := by decide
    simp [lexemeAt, hstart, hdigit, hmeasure]
  | symbol mark =>
    have hfound := atStart?_append_of_breaks mark hrest
    rw [← htext, List.cons_append] at hfound
    have hlength : mark.chars.length - 1 = cs.length := by
      rw [← htext]
      rfl
    have hfirst : isWordStart c = false ∧ isDigit c = false ∧ c ≠ '"' ∧ c ≠ '/' := by
      cases mark <;> cases htext <;> decide
    obtain ⟨hstart, hdigit, hquote, hslash⟩ := hfirst
    simp [lexemeAt, hstart, hdigit, hquote, hslash, hfound, hlength]

theorem take_takeWhile (p : Char → Bool) (cs : List Char) :
    cs.take (cs.takeWhile p).length = cs.takeWhile p :=
  (List.prefix_iff_eq_take.1 (List.takeWhile_prefix p)).symm

/-- What is found is a lexeme, unless it is a comment or invalid. -/
theorem lexes_of_lexemeAt {kind : TokenKind} {c : Char} {cs : List Char} {length : Nat}
    (h : lexemeAt c cs = (kind, length)) (hcomment : kind.isComment = false)
    (hinvalid : kind ≠ .invalid) : Lexes kind (c :: cs.take length) := by
  unfold lexemeAt at h
  split at h
  · next hc =>
    cases h
    rw [take_takeWhile]
    exact .word hc (List.all_eq_true.1 List.all_takeWhile)
  · split at h
    · next hc =>
      cases h
      rw [take_takeWhile]
      exact .integer hc (List.all_eq_true.1 List.all_takeWhile)
    · split at h
      · next hquote =>
        subst hquote
        cases hclosed : (Quoted.measure cs).2 with
        | false =>
          simp only [hclosed] at h
          cases h
          exact absurd rfl hinvalid
        | true =>
          simp only [hclosed] at h
          cases h
          obtain ⟨hle, hmeasure⟩ := measure_take_append (Prod.ext rfl hclosed)
          have hself := hmeasure []
          rw [List.append_nil] at hself
          apply Lexes.string
          rw [hself, List.length_take_of_le hle]
      · split at h
        · cases h
          cases hcomment
        · split at h
          · cases h
            cases hcomment
          · cases h
            exact absurd rfl hinvalid
        · split at h
          · next mark hmark =>
            cases h
            rw [← chars_eq_take_of_atStart? hmark]
            exact .symbol mark
          · cases h
            exact absurd rfl hinvalid

theorem Lexes.eq_cons {kind : TokenKind} {text : List Char} (h : Lexes kind text) :
    ∃ c cs, text = c :: cs := by
  cases h with
  | symbol mark => cases mark <;> exact ⟨_, _, rfl⟩
  | _ => exact ⟨_, _, rfl⟩

theorem Lexes.isComment_eq_false {kind : TokenKind} {text : List Char} (h : Lexes kind text) :
    kind.isComment = false := by
  cases h with
  | word hc hcs =>
    unfold wordKind
    split <;> rfl
  | _ => rfl

theorem Lexes.isGap_eq_false {kind : TokenKind} {c : Char} {cs : List Char}
    (h : Lexes kind (c :: cs)) : isGap c = false := by
  rw [Bool.eq_false_iff]
  intro hgap
  generalize htext : c :: cs = text at h
  cases h with
  | word hc hcs =>
    cases htext
    have hword := isWordChar_of_breaks (.inl hgap)
    simp [isWordChar, hc] at hword
  | integer hc hcs =>
    cases htext
    rw [isDigit_of_breaks (.inl hgap)] at hc
    cases hc
  | string hcs =>
    cases htext
    exact absurd hgap (by decide)
  | symbol mark =>
    revert hgap
    cases mark <;> cases htext <;> decide

/-! ## The words of a text -/

/-- The tokens of the characters without their places, comments left out. -/
def words (cs : List Char) : List (TokenKind × String) :=
  ((scanFrom 0 cs).filter (!·.kind.isComment)).map fun token => (token.kind, token.text)

/-- Where a text starts does not matter for its words. -/
theorem map_filter_scanFrom (offset : Nat) (cs : List Char) :
    ((scanFrom offset cs).filter (!·.kind.isComment)).map
      (fun token => (token.kind, token.text)) = words cs := by
  unfold words
  generalize 0 = other
  induction offset, cs using scanFrom.induct generalizing other with
  | case1 offset => simp [scanFrom]
  | case2 offset c cs hgap ih =>
    rw [scanFrom, scanFrom, if_pos hgap, if_pos hgap, ih]
  | case3 offset c cs hgap found lexeme stop ih =>
    rw [scanFrom, scanFrom, if_neg hgap, if_neg hgap]
    simp only [List.filter_cons]
    split
    · rw [List.map_cons, List.map_cons]
      exact congrArg _ (ih _)
    · exact ih _

theorem words_nil : words [] = [] := by
  simp [words, scanFrom]

theorem words_gap {c : Char} (h : isGap c = true) (cs : List Char) :
    words (c :: cs) = words cs := by
  rw [words, scanFrom, if_pos h, map_filter_scanFrom]

/-- The words from a lexeme on: the lexeme, unless it is a comment, and the words behind it. -/
theorem words_cons {kind : TokenKind} {c : Char} {cs rest : List Char}
    (hgap : isGap c = false) (hlexeme : lexemeAt c (cs ++ rest) = (kind, cs.length)) :
    words (c :: (cs ++ rest)) =
      if kind.isComment then words rest else (kind, String.ofList (c :: cs)) :: words rest := by
  have hstart : ¬isGap c = true := by simp [hgap]
  rw [words, scanFrom, if_neg hstart, List.filter_cons]
  simp only [hlexeme, List.take_left, List.drop_left]
  cases kind.isComment with
  | true => exact map_filter_scanFrom _ rest
  | false => exact congrArg _ (map_filter_scanFrom _ rest)

theorem words_lexeme {kind : TokenKind} {text rest : List Char} (h : Lexes kind text)
    (hrest : Breaks rest) : words (text ++ rest) = (kind, String.ofList text) :: words rest := by
  obtain ⟨c, cs, rfl⟩ := h.eq_cons
  have hwords := words_cons h.isGap_eq_false (lexemeAt_of_lexes h hrest)
  rw [h.isComment_eq_false] at hwords
  exact hwords

/-! ## What separates lexemes -/

/-- Any mix of gaps, line comments with their line feed, and closed block comments. -/
inductive Separator : List Char → Prop
  | nil : Separator []
  | gap {c : Char} {cs : List Char} (hc : isGap c = true) (hcs : Separator cs) :
      Separator (c :: cs)
  | lineComment {body cs : List Char} (hbody : '\n' ∉ body) (hcs : Separator cs) :
      Separator ('/' :: '/' :: body ++ '\n' :: cs)
  | blockComment {body cs : List Char} (hbody : ¬['*', '/'] <:+: body) (hcs : Separator cs) :
      Separator ('/' :: '*' :: body ++ '*' :: '/' :: cs)

theorem Separator.breaks {cs rest : List Char} (h : Separator cs) (hrest : cs = [] → Breaks rest) :
    Breaks (cs ++ rest) := by
  cases h with
  | nil => exact hrest rfl
  | gap hc hcs =>
    rintro c ⟨⟩
    exact .inl hc
  | lineComment hbody hcs =>
    rintro c ⟨⟩
    exact .inr rfl
  | blockComment hbody hcs =>
    rintro c ⟨⟩
    exact .inr rfl

/-- A block comment ends at the first place where it can. -/
theorem commentClose?_append {body : List Char} (hbody : ¬['*', '/'] <:+: body)
    (rest : List Char) :
    commentClose? (body ++ '*' :: '/' :: rest) = some (body.length + 2) := by
  induction body with
  | nil => rfl
  | cons c body ih =>
    have hbehind : ¬['*', '/'] <:+: body :=
      fun h => hbody (h.trans (List.suffix_cons c body).isInfix)
    have hclose : ∀ tail, c = '*' → body ++ '*' :: '/' :: rest ≠ '/' :: tail := by
      rintro tail rfl heq
      cases body with
      | nil => cases heq
      | cons d body =>
        cases heq
        exact hbody ⟨[], body, rfl⟩
    rw [List.cons_append, commentClose?, ih hbehind]
    · simp
    · exact hclose

theorem lexemeAt_lineComment {body : List Char} (hbody : '\n' ∉ body) (rest : List Char) :
    lexemeAt '/' ('/' :: body ++ '\n' :: rest) = (.lineComment, ('/' :: body).length) := by
  have hrun : (body ++ '\n' :: rest).takeWhile (fun d => !decide (d = '\n')) = body := by
    rw [List.takeWhile_append_of_pos]
    · simp
    · intro d hd
      simpa using ne_of_mem_of_not_mem hd hbody
  have hclass : isWordStart '/' = false ∧ isDigit '/' = false := by decide
  simp [lexemeAt, hclass, hrun]

theorem lexemeAt_blockComment {body : List Char} (hbody : ¬['*', '/'] <:+: body)
    (rest : List Char) :
    lexemeAt '/' ('*' :: body ++ ['*', '/'] ++ rest) =
      (.blockComment, ('*' :: body ++ ['*', '/']).length) := by
  have hclose := commentClose?_append hbody rest
  have hclass : isWordStart '/' = false ∧ isDigit '/' = false := by decide
  simp [lexemeAt, hclass, hclose]

theorem words_separator {gap : List Char} (h : Separator gap) (rest : List Char) :
    words (gap ++ rest) = words rest := by
  have hslash : isGap '/' = false := by decide
  induction h with
  | nil => rfl
  | gap hc hcs ih => rw [List.cons_append, words_gap hc, ih]
  | @lineComment body cs hbody hcs ih =>
    have hcomment := words_cons hslash (lexemeAt_lineComment hbody (cs ++ rest))
    have hfeed : words ('\n' :: (cs ++ rest)) = words (cs ++ rest) := words_gap (by decide) _
    simp only [TokenKind.isComment, if_true, hfeed, ih] at hcomment
    simpa using hcomment
  | @blockComment body cs hbody hcs ih =>
    have hcomment := words_cons hslash (lexemeAt_blockComment hbody (cs ++ rest))
    simp only [TokenKind.isComment, if_true, ih] at hcomment
    simpa using hcomment

/-! ## Layouts -/

/-- Lexemes with a separator behind each of them, which can be empty behind the last one only. -/
inductive Spaced : List String → List Char → Prop
  | nil : Spaced [] []
  | cons {text : String} {texts : List String} {gap cs : List Char} (hgap : Separator gap)
      (hapart : gap = [] → texts = []) (hcs : Spaced texts cs) :
      Spaced (text :: texts) (text.toList ++ (gap ++ cs))

/-- The lexemes laid out in the text, with any separator before the first one. -/
def LaidOut (texts : List String) (text : String) : Prop :=
  ∃ lead cs, Separator lead ∧ Spaced texts cs ∧ text.toList = lead ++ cs

theorem Spaced.breaks {texts : List String} {gap cs : List Char} (hgap : Separator gap)
    (hapart : gap = [] → texts = []) (hcs : Spaced texts cs) : Breaks (gap ++ cs) := by
  apply hgap.breaks
  intro hempty
  cases hapart hempty
  cases hcs
  exact .nil

theorem words_spaced {phrase : List (TokenKind × String)} {cs : List Char}
    (hlexes : ∀ word ∈ phrase, Lexes word.1 word.2.toList)
    (h : Spaced (phrase.map Prod.snd) cs) : words cs = phrase := by
  induction phrase generalizing cs with
  | nil =>
    cases h
    exact words_nil
  | cons word phrase ih =>
    obtain ⟨hword, hphrase⟩ := List.forall_mem_cons.1 hlexes
    cases h with
    | cons hgap hapart hcs =>
      rw [words_lexeme hword (Spaced.breaks hgap hapart hcs), words_separator hgap,
        ih hphrase hcs, String.ofList_toList]

/-- The words of a text do not depend on its layout. -/
theorem words_of_laidOut {phrase : List (TokenKind × String)} {text : String}
    (hlexes : ∀ word ∈ phrase, Lexes word.1 word.2.toList)
    (h : LaidOut (phrase.map Prod.snd) text) : words text.toList = phrase := by
  obtain ⟨lead, cs, hlead, hcs, htext⟩ := h
  rw [htext, words_separator hlead, words_spaced hlexes hcs]

/-- Lexemes can be laid out with a space behind each of them. -/
theorem exists_laidOut (texts : List String) : ∃ text, LaidOut texts text := by
  have hspace : Separator [' '] := .gap (by decide) .nil
  have hspaced : ∃ cs, Spaced texts cs := by
    induction texts with
    | nil => exact ⟨[], .nil⟩
    | cons text texts ih =>
      obtain ⟨cs, hcs⟩ := ih
      exact ⟨_, .cons hspace nofun hcs⟩
  obtain ⟨cs, hcs⟩ := hspaced
  exact ⟨String.ofList cs, [], cs, .nil, hcs, String.toList_ofList⟩

/-- The tokens of a text are lexemes, unless they are comments or invalid. -/
theorem lexes_of_mem_scanFrom {offset : Nat} {cs : List Char} {token : Token}
    (h : token ∈ scanFrom offset cs) (hcomment : token.kind.isComment = false)
    (hinvalid : token.kind ≠ .invalid) : Lexes token.kind token.text.toList := by
  induction offset, cs using scanFrom.induct with
  | case1 offset => simp [scanFrom] at h
  | case2 offset c cs hgap ih =>
    rw [scanFrom, if_pos hgap] at h
    exact ih h
  | case3 offset c cs hgap found lexeme stop ih =>
    rw [scanFrom, if_neg hgap] at h
    rcases List.mem_cons.1 h with rfl | h
    · rw [String.toList_ofList]
      exact lexes_of_lexemeAt rfl hcomment hinvalid
    · exact ih h

theorem lexes_of_mem_significant {text : String} {token : Token} (h : token ∈ significant text)
    (hinvalid : token.kind ≠ .invalid) : Lexes token.kind token.text.toList := by
  obtain ⟨hmem, hkind⟩ := List.mem_filter.1 h
  exact lexes_of_mem_scanFrom hmem (by simpa using hkind) hinvalid

end CrossModel.Token
