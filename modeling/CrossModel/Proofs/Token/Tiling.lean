import CrossModel.Proofs.Token.Spacing

/-!
# Tokens tile the text

`Matches` lists the patterns of the tokens, and `Reaches` says for each kind of token where it ends
in a text. Scanning finds the longest text at each place that fits a pattern, and an invalid token
only where nothing fits. The main result is that the tokens tile the text: with the gaps between
them they are the whole text, and the byte offsets of each token are those of its place.
-/

namespace CrossModel

/-! ## Bytes -/

theorem utf8ByteSize_ofList (cs : List Char) : (String.ofList cs).utf8ByteSize = utf8Length cs := by
  induction cs with
  | nil => rfl
  | cons c cs ih =>
    have hcons : String.ofList (c :: cs) = String.singleton c ++ String.ofList cs := by
      rw [String.singleton_eq_ofList, ← String.ofList_append]
      rfl
    rw [hcons, String.utf8ByteSize_append, ih, String.utf8ByteSize_singleton, utf8Length]

theorem utf8ByteSize_eq (text : String) : text.utf8ByteSize = utf8Length text.toList := by
  rw [← utf8ByteSize_ofList, String.ofList_toList]

theorem utf8Length_cons_pos (c : Char) (cs : List Char) : 0 < utf8Length (c :: cs) := by
  have hc := c.utf8Size_pos
  rw [utf8Length]
  omega

/-- The bytes of a part of a text are those between the offsets of its place. -/
theorem extract_toUTF8 {text part : String} {before behind : List Char}
    (h : text.toList = before ++ (part.toList ++ behind)) :
    text.toUTF8.extract (utf8Length before) (utf8Length before + utf8Length part.toList) =
      part.toUTF8 := by
  have htext : text = String.ofList before ++ (part ++ String.ofList behind) := by
    rw [← String.toList_inj, h]
    simp
  have hbefore : utf8Length before = (String.ofList before).toByteArray.size := by
    rw [String.size_toByteArray, utf8ByteSize_ofList]
  have hpart : utf8Length part.toList = part.toByteArray.size := by
    rw [String.size_toByteArray, utf8ByteSize_eq]
  calc text.toUTF8.extract (utf8Length before) (utf8Length before + utf8Length part.toList)
    _ = ((String.ofList before).toByteArray ++
          (part.toByteArray ++ (String.ofList behind).toByteArray)).extract
          (utf8Length before + 0) (utf8Length before + utf8Length part.toList) := by
      rw [String.toUTF8, htext, String.toByteArray_append, String.toByteArray_append,
        Nat.add_zero]
    _ = (part.toByteArray ++ (String.ofList behind).toByteArray).extract 0
          (utf8Length part.toList) := ByteArray.extract_append_size_add' hbefore
    _ = part.toUTF8 := ByteArray.extract_append_eq_left hpart

/-! ## Quoted texts -/

namespace Quoted

/-- Characters other than quotes and backslashes, and backslashes with one more character, which is
no line feed. -/
inductive Units : List Char → Prop
  | nil : Units []
  | plain {c : Char} {cs : List Char} (hquote : c ≠ '"') (hslash : c ≠ '\\') (hcs : Units cs) :
      Units (c :: cs)
  | escape {c : Char} {cs : List Char} (hc : c ≠ '\n') (hcs : Units cs) :
      Units ('\\' :: c :: cs)

/-- Neither a unit nor a closing quote comes next: the text ends, or a backslash stands at the end
of the text or of a line. -/
inductive Halts : List Char → Prop
  | finish : Halts []
  | slash : Halts ['\\']
  | slashFeed {rest : List Char} : Halts ('\\' :: '\n' :: rest)

theorem measure_append {units : List Char} (h : Units units) (rest : List Char) :
    measure (units ++ rest) = ((measure rest).1 + units.length, (measure rest).2) := by
  induction h with
  | nil => rfl
  | plain hquote hslash hcs ih =>
    rw [List.cons_append, Token.measure_cons hquote hslash, ih, List.length_cons, Nat.add_assoc]
  | escape hc hcs ih =>
    rw [List.cons_append, List.cons_append, Token.measure_escape hc, ih, List.length_cons,
      List.length_cons, Nat.add_assoc]

theorem measure_of_halts {rest : List Char} (h : Halts rest) : measure rest = (0, false) := by
  cases h <;> rfl

/-- The units at the start of a text end at a quote, or nothing goes on behind them. -/
theorem exists_units (cs : List Char) : ∃ units rest, Units units ∧ cs = units ++ rest ∧
    ((∃ behind, rest = '"' :: behind) ∨ Halts rest) := by
  induction cs using measure.induct with
  | case1 => exact ⟨[], [], .nil, rfl, .inr .finish⟩
  | case2 tail => exact ⟨[], _, .nil, rfl, .inl ⟨tail, rfl⟩⟩
  | case3 => exact ⟨[], _, .nil, rfl, .inr .slash⟩
  | case4 tail => exact ⟨[], _, .nil, rfl, .inr .slashFeed⟩
  | case5 c tail hc ih =>
    obtain ⟨units, rest, hunits, rfl, hrest⟩ := ih
    exact ⟨_, rest, .escape hc hunits, rfl, hrest⟩
  | case6 c tail hquote hlone hpair ih =>
    obtain ⟨units, rest, hunits, rfl, hrest⟩ := ih
    have hslash : c ≠ '\\' := by
      rintro rfl
      cases hbehind : units ++ rest with
      | nil => exact hlone rfl hbehind
      | cons d behind => exact hpair d behind rfl hbehind
    exact ⟨_, rest, .plain hquote hslash hunits, rfl, hrest⟩

end Quoted

namespace Token

/-! ## Patterns -/

/-- The texts that fit the pattern of a kind. A keyword fits the pattern of identifiers as well. -/
inductive Matches : TokenKind → List Char → Prop
  | lineComment {body : List Char} (hbody : '\n' ∉ body) :
      Matches .lineComment ('/' :: '/' :: body)
  | blockComment {body : List Char} (hbody : ¬['*', '/'] <:+: body) :
      Matches .blockComment ('/' :: '*' :: (body ++ ['*', '/']))
  | keyword (word : Keyword) : Matches (.keyword word) word.text.toList
  | ident {c : Char} {cs : List Char} (hc : isWordStart c = true)
      (hcs : ∀ d ∈ cs, isWordChar d = true) : Matches .ident (c :: cs)
  | integer {c : Char} {cs : List Char} (hc : isDigit c = true)
      (hcs : ∀ d ∈ cs, isDigit d = true) : Matches .integer (c :: cs)
  | string {units : List Char} (hunits : Quoted.Units units) :
      Matches .string ('"' :: (units ++ ['"']))
  | symbol (mark : Symbol) : Matches (.symbol mark) mark.chars

/-- The text fits the pattern of the kind, and no longer text at its place fits any pattern. An
invalid token stands where no text fits. -/
structure Longest (kind : TokenKind) (text rest : List Char) : Prop where
  fits : kind ≠ .invalid → Matches kind text
  longest : ∀ {other : TokenKind} {longer : List Char}, longer <+: text ++ rest →
    Matches other longer → kind ≠ .invalid ∧ longer.length ≤ text.length

/-- How far a token of each kind reaches, where `rest` is the text behind it. -/
inductive Reaches : TokenKind → List Char → List Char → Prop
  /-- A word ends where no character of a word follows, and is a keyword by its text. -/
  | word {kind : TokenKind} {c : Char} {cs rest : List Char} (hc : isWordStart c = true)
      (hcs : ∀ d ∈ cs, isWordChar d = true) (hrest : ∀ d ∈ rest.head?, isWordChar d = false)
      (hkind : kind = .ident ∨ ∃ keyword, kind = .keyword keyword)
      (hkeyword : ∀ keyword, kind = .keyword keyword ↔ c :: cs = keyword.text.toList) :
      Reaches kind (c :: cs) rest
  | integer {c : Char} {cs rest : List Char} (hc : isDigit c = true)
      (hcs : ∀ d ∈ cs, isDigit d = true) (hrest : ∀ d ∈ rest.head?, isDigit d = false) :
      Reaches .integer (c :: cs) rest
  /-- Of two symbols that could start here, the longer one is taken. -/
  | symbol {mark : Symbol} {rest : List Char}
      (hrest : mark ∈ [.less, .greater, .bang] → rest.head? ≠ some '=') :
      Reaches (.symbol mark) mark.chars rest
  /-- A line comment ends before the line feed, or at the end of the text. -/
  | lineComment {body rest : List Char} (hbody : '\n' ∉ body)
      (hrest : rest = [] ∨ rest.head? = some '\n') :
      Reaches .lineComment ('/' :: '/' :: body) rest
  | blockComment {body rest : List Char} (hbody : ¬['*', '/'] <:+: body) :
      Reaches .blockComment ('/' :: '*' :: (body ++ ['*', '/'])) rest
  | string {units rest : List Char} (hunits : Quoted.Units units) :
      Reaches .string ('"' :: (units ++ ['"'])) rest
  /-- A character at which neither a gap nor a token starts is a token by itself. -/
  | unknown {c : Char} {rest : List Char} (hc : isGap c = false)
      (hnone : ∀ kind text, text <+: c :: rest → ¬Matches kind text) : Reaches .invalid [c] rest
  /-- A comment that is not closed is the rest of the text. -/
  | unclosedComment {body : List Char} (hbody : ¬['*', '/'] <:+: body) :
      Reaches .invalid ('/' :: '*' :: body) []
  | unclosedString {units rest : List Char} (hunits : Quoted.Units units)
      (hrest : Quoted.Halts rest) : Reaches .invalid ('"' :: units) rest

/-! ## Where the scanner stops -/

theorem ofText?_eq_some_iff {word : String} {keyword : Keyword} :
    Keyword.ofText? word = some keyword ↔ word = keyword.text := by
  constructor
  · intro h
    have htext := List.find?_some h
    exact (of_decide_eq_true htext).symm
  · rintro rfl
    cases keyword <;> decide

theorem wordKind_eq_keyword_iff {word : List Char} {keyword : Keyword} :
    wordKind word = .keyword keyword ↔ word = keyword.text.toList := by
  have htext : word = keyword.text.toList ↔
      Keyword.ofText? (String.ofList word) = some keyword := by
    rw [ofText?_eq_some_iff, ← String.toList_inj, String.toList_ofList]
  rw [htext, wordKind]
  cases Keyword.ofText? (String.ofList word) with
  | none => simp
  | some found => simp

theorem wordKind_cases (word : List Char) :
    wordKind word = .ident ∨ ∃ keyword, wordKind word = .keyword keyword := by
  unfold wordKind
  cases Keyword.ofText? (String.ofList word) with
  | none => exact .inl rfl
  | some keyword => exact .inr ⟨keyword, rfl⟩

theorem lexemeAt_word {c : Char} (hc : isWordStart c = true) (cs : List Char) :
    lexemeAt c cs = (wordKind (c :: cs.takeWhile isWordChar),
      (cs.takeWhile isWordChar).length) := by
  simp only [lexemeAt, hc, if_true]

theorem lexemeAt_digit {c : Char} (hc : isDigit c = true) (cs : List Char) :
    lexemeAt c cs = (.integer, (cs.takeWhile isDigit).length) := by
  simp [lexemeAt, hc, isWordStart_of_isDigit hc]

theorem lexemeAt_quote (cs : List Char) :
    lexemeAt '"' cs =
      (if (Quoted.measure cs).2 then .string else .invalid, (Quoted.measure cs).1) := by
  have hclass : isWordStart '"' = false ∧ isDigit '"' = false := by decide
  simp [lexemeAt, hclass]

theorem lexemeAt_slash_slash (cs : List Char) :
    lexemeAt '/' ('/' :: cs) = (.lineComment, (cs.takeWhile (· ≠ '\n')).length + 1) := by
  have hclass : isWordStart '/' = false ∧ isDigit '/' = false := by decide
  simp [lexemeAt, hclass]

theorem lexemeAt_mark {c : Char} {cs : List Char} {mark : Symbol}
    (hc : isWordStart c = false ∧ isDigit c = false ∧ c ≠ '"' ∧ c ≠ '/')
    (hmark : Symbol.atStart? (c :: cs) = some mark) :
    lexemeAt c cs = (.symbol mark, mark.chars.length - 1) := by
  obtain ⟨hstart, hdigit, hquote, hslash⟩ := hc
  simp [lexemeAt, hstart, hdigit, hquote, hslash, hmark]

/-- A mark that starts the text is found, or a longer one. -/
theorem exists_atStart?_append (mark : Symbol) (rest : List Char) :
    ∃ found, Symbol.atStart? (mark.chars ++ rest) = some found ∧
      mark.chars.length ≤ found.chars.length := by
  by_cases hlength : mark.chars.length = 1
  · have hall : mark ∈ Symbol.all := by cases mark <;> decide
    have hstarts : mark.chars.isPrefixOf (mark.chars ++ rest) = true :=
      List.isPrefixOf_iff_prefix.2 (List.prefix_append _ _)
    have hsome : (Symbol.atStart? (mark.chars ++ rest)).isSome = true :=
      List.find?_isSome.2 ⟨mark, hall, hstarts⟩
    obtain ⟨found, hfound⟩ := Option.isSome_iff_exists.1 hsome
    have hpositive : 1 ≤ found.chars.length := by cases found <;> decide
    exact ⟨found, hfound, hlength ▸ hpositive⟩
  · have hself : Symbol.atStart? (mark.chars ++ rest) = some mark := by
      revert hlength
      cases mark <;> simp [Symbol.atStart?, Symbol.all, Symbol.chars, List.isPrefixOf]
    exact ⟨mark, hself, Nat.le_refl _⟩

theorem length_le_takeWhile_append {p : Char → Bool} {cs : List Char}
    (h : ∀ d ∈ cs, p d = true) (rest : List Char) :
    cs.length ≤ ((cs ++ rest).takeWhile p).length := by
  rw [List.takeWhile_append_of_pos h, List.length_append]
  omega

/-- Where a text fits a pattern, the scanner finds a token that is at least as long. -/
theorem lexemeAt_of_matches {kind : TokenKind} {c : Char} {cs : List Char}
    (h : Matches kind (c :: cs)) (rest : List Char) :
    (lexemeAt c (cs ++ rest)).1 ≠ .invalid ∧ cs.length ≤ (lexemeAt c (cs ++ rest)).2 := by
  have hword (hc : isWordStart c = true) (hcs : ∀ d ∈ cs, isWordChar d = true) :
      (lexemeAt c (cs ++ rest)).1 ≠ .invalid ∧ cs.length ≤ (lexemeAt c (cs ++ rest)).2 := by
    rw [lexemeAt_word hc]
    refine ⟨?_, length_le_takeWhile_append hcs rest⟩
    rcases wordKind_cases (c :: (cs ++ rest).takeWhile isWordChar) with hkind | ⟨keyword, hkind⟩
    · rw [hkind]
      nofun
    · rw [hkind]
      nofun
  generalize htext : c :: cs = text at h
  cases h with
  | @lineComment body hbody =>
    cases htext
    have hplain : ∀ d ∈ body, decide (d ≠ '\n') = true :=
      fun d hd => by simpa using ne_of_mem_of_not_mem hd hbody
    have hrun := length_le_takeWhile_append hplain rest
    rw [List.cons_append, lexemeAt_slash_slash]
    exact ⟨nofun, Nat.succ_le_succ hrun⟩
  | blockComment hbody =>
    cases htext
    have hfound := lexemeAt_blockComment hbody rest
    simp only [List.cons_append] at hfound ⊢
    rw [hfound]
    exact ⟨nofun, Nat.le_refl _⟩
  | keyword word =>
    obtain ⟨hstart, hchars⟩ : isWordStart c = true ∧ cs.all isWordChar = true := by
      cases word <;> cases htext <;> decide
    exact hword hstart (List.all_eq_true.1 hchars)
  | ident hc hcs =>
    cases htext
    exact hword hc hcs
  | integer hc hcs =>
    cases htext
    rw [lexemeAt_digit hc]
    exact ⟨nofun, length_le_takeWhile_append hcs rest⟩
  | @string units hunits =>
    cases htext
    have hmeasure : Quoted.measure (units ++ ['"'] ++ rest) = (1 + units.length, true) := by
      rw [List.append_assoc, Quoted.measure_append hunits]
      rfl
    rw [lexemeAt_quote, hmeasure, List.length_append]
    exact ⟨nofun, Nat.le_of_eq (Nat.add_comm _ _)⟩
  | symbol mark =>
    have hclass : isWordStart c = false ∧ isDigit c = false ∧ c ≠ '"' ∧ c ≠ '/' := by
      cases mark <;> cases htext <;> decide
    obtain ⟨found, hfound, hlength⟩ := exists_atStart?_append mark rest
    rw [← htext, List.cons_append] at hfound
    rw [← htext, List.length_cons] at hlength
    rw [lexemeAt_mark hclass hfound]
    exact ⟨nofun, Nat.le_sub_one_of_lt hlength⟩

/-! ## What the scanner finds -/

theorem Matches.eq_cons {kind : TokenKind} {text : List Char} (h : Matches kind text) :
    ∃ c cs, text = c :: cs := by
  cases h with
  | keyword word => cases word <;> exact ⟨_, _, rfl⟩
  | symbol mark => cases mark <;> exact ⟨_, _, rfl⟩
  | _ => exact ⟨_, _, rfl⟩

theorem infix_of_infix_cons {c : Char} {cs : List Char} (h : ['*', '/'] <:+: c :: cs)
    (hother : ∀ rest, c = '*' → cs ≠ '/' :: rest) : ['*', '/'] <:+: cs := by
  rcases List.infix_cons_iff.1 h with ⟨rest, hfirst⟩ | hlater
  · obtain ⟨rfl, hcs⟩ := List.cons.inj hfirst
    exact absurd hcs.symm (hother rest rfl)
  · exact hlater

/-- The closing mark of a comment is the first one. -/
theorem commentClose?_eq_some {cs : List Char} {length : Nat}
    (h : commentClose? cs = some length) :
    ∃ body rest, cs = body ++ '*' :: '/' :: rest ∧ length = body.length + 2 ∧
      ¬['*', '/'] <:+: body := by
  induction cs using commentClose?.induct generalizing length with
  | case1 => cases h
  | case2 rest =>
    cases h
    exact ⟨[], rest, rfl, rfl, by decide⟩
  | case3 c cs hother ih =>
    rw [commentClose?.eq_3 _ _ hother] at h
    obtain ⟨inner, hinner, rfl⟩ := Option.map_eq_some_iff.1 h
    obtain ⟨body, rest, rfl, rfl, hbody⟩ := ih hinner
    refine ⟨c :: body, rest, rfl, rfl, fun hclose => ?_⟩
    apply hbody
    apply infix_of_infix_cons hclose
    rintro behind hc rfl
    exact hother _ hc rfl

theorem commentClose?_eq_none {cs : List Char} (h : commentClose? cs = none) :
    ¬['*', '/'] <:+: cs := by
  induction cs using commentClose?.induct with
  | case1 => simp
  | case2 rest => cases h
  | case3 c cs hother ih =>
    rw [commentClose?.eq_3 _ _ hother, Option.map_eq_none_iff] at h
    intro hclose
    exact ih h (infix_of_infix_cons hclose hother)

theorem drop_takeWhile (p : Char → Bool) (cs : List Char) :
    cs.drop (cs.takeWhile p).length = cs.dropWhile p := by
  have hsplit := List.takeWhile_append_dropWhile (p := p) (l := cs)
  calc cs.drop (cs.takeWhile p).length
    _ = (cs.takeWhile p ++ cs.dropWhile p).drop (cs.takeWhile p).length := by rw [hsplit]
    _ = cs.dropWhile p := List.drop_left

theorem head?_dropWhile {p : Char → Bool} {cs : List Char} :
    ∀ d ∈ (cs.dropWhile p).head?, p d = false := by
  intro d hd
  have hstop := List.head?_dropWhile_not p cs
  rw [Option.mem_def.1 hd] at hstop
  exact hstop

theorem not_mem_takeWhile_ne {c : Char} {cs : List Char} : c ∉ cs.takeWhile (· ≠ c) := by
  intro hc
  have hne := List.all_eq_true.1 (List.all_takeWhile (p := (· ≠ c)) (l := cs)) c hc
  simp at hne

theorem head?_dropWhile_ne {c : Char} {cs : List Char} :
    cs.dropWhile (· ≠ c) = [] ∨ (cs.dropWhile (· ≠ c)).head? = some c := by
  have hstop : ∀ d ∈ (cs.dropWhile (· ≠ c)).head?, decide (d ≠ c) = false := head?_dropWhile
  cases hrest : cs.dropWhile (· ≠ c) with
  | nil => exact .inl rfl
  | cons d rest =>
    rw [hrest] at hstop
    have hd : d = c := by simpa using hstop d rfl
    exact .inr (congrArg some hd)

theorem reaches_word {c : Char} (hc : isWordStart c = true) (cs : List Char) :
    Reaches (wordKind (c :: cs.takeWhile isWordChar)) (c :: cs.takeWhile isWordChar)
      (cs.dropWhile isWordChar) :=
  .word hc (List.all_eq_true.1 List.all_takeWhile) head?_dropWhile (wordKind_cases _)
    fun _ => wordKind_eq_keyword_iff

theorem reaches_quote (cs : List Char) :
    Reaches (if (Quoted.measure cs).2 then .string else .invalid)
      ('"' :: cs.take (Quoted.measure cs).1) (cs.drop (Quoted.measure cs).1) := by
  obtain ⟨units, rest, hunits, rfl, hrest⟩ := Quoted.exists_units cs
  rw [Quoted.measure_append hunits]
  rcases hrest with ⟨behind, rfl⟩ | hrest
  · have hclosed : Quoted.measure ('"' :: behind) = (1, true) := rfl
    have hsplit : units ++ '"' :: behind = (units ++ ['"']) ++ behind := by simp
    have hlength : 1 + units.length = (units ++ ['"']).length := by
      rw [List.length_append, Nat.add_comm]
      rfl
    rw [hclosed, hlength, hsplit, List.take_left, List.drop_left]
    exact .string hunits
  · rw [Quoted.measure_of_halts hrest, Nat.zero_add, List.take_left, List.drop_left]
    exact .unclosedString hunits hrest

theorem reaches_mark {c : Char} {cs : List Char} {mark : Symbol}
    (h : Symbol.atStart? (c :: cs) = some mark) :
    Reaches (.symbol mark) (c :: cs.take (mark.chars.length - 1))
      (cs.drop (mark.chars.length - 1)) := by
  have hchars := chars_eq_take_of_atStart? h
  rw [← hchars]
  refine .symbol fun hmark hequal => ?_
  -- With the equals sign behind it the mark would be a longer one, which would have been found.
  obtain ⟨rest, hrest⟩ := List.head?_eq_some_iff.1 hequal
  obtain ⟨longer, hlonger⟩ : ∃ longer : Symbol, longer.chars = mark.chars ++ ['='] := by
    simp only [List.mem_cons, List.not_mem_nil, or_false] at hmark
    rcases hmark with rfl | rfl | rfl
    · exact ⟨.lessEqual, rfl⟩
    · exact ⟨.greaterEqual, rfl⟩
    · exact ⟨.notEqual, rfl⟩
  have htext : c :: cs = longer.chars ++ rest := by
    calc c :: cs
      _ = (c :: cs.take (mark.chars.length - 1)) ++ cs.drop (mark.chars.length - 1) := by
        rw [List.cons_append, List.take_append_drop]
      _ = mark.chars ++ '=' :: rest := by rw [← hchars, hrest]
      _ = longer.chars ++ rest := by rw [hlonger, List.append_assoc]; rfl
  obtain ⟨found, hfound, hlength⟩ := exists_atStart?_append longer rest
  rw [← htext, h] at hfound
  cases hfound
  rw [hlonger, List.length_append] at hlength
  exact absurd hlength (by simp)

/-- Nothing fits where the scanner finds an invalid token. -/
theorem not_matches_of_invalid {c : Char} {cs : List Char} (h : (lexemeAt c cs).1 = .invalid)
    (kind : TokenKind) (text : List Char) (hstarts : text <+: c :: cs) : ¬Matches kind text := by
  intro hmatches
  obtain ⟨d, tail, rfl⟩ := hmatches.eq_cons
  obtain ⟨rfl, rest, rfl⟩ := List.cons_prefix_cons.1 hstarts
  exact (lexemeAt_of_matches hmatches rest).1 h

/-- The token that the scanner finds reaches as far as its kind says. -/
theorem reaches_lexemeAt {c : Char} (hc : isGap c = false) (cs : List Char) :
    Reaches (lexemeAt c cs).1 (c :: cs.take (lexemeAt c cs).2) (cs.drop (lexemeAt c cs).2) := by
  have hinvalid := @not_matches_of_invalid c cs
  generalize hfound : lexemeAt c cs = found at hinvalid
  unfold lexemeAt at hfound
  split at hfound
  · next hstart =>
    rw [← hfound, take_takeWhile, drop_takeWhile]
    exact reaches_word hstart cs
  · split at hfound
    · next hdigit =>
      rw [← hfound, take_takeWhile, drop_takeWhile]
      exact .integer hdigit (List.all_eq_true.1 List.all_takeWhile) head?_dropWhile
    · split at hfound
      · next hquote =>
        subst hquote
        rw [← hfound]
        exact reaches_quote cs
      · split at hfound
        · rw [← hfound, List.take_succ_cons, List.drop_succ_cons, take_takeWhile, drop_takeWhile]
          exact .lineComment not_mem_takeWhile_ne head?_dropWhile_ne
        · split at hfound
          · next rest length hclose =>
            obtain ⟨body, behind, rfl, rfl, hbody⟩ := commentClose?_eq_some hclose
            have hsplit : body ++ '*' :: '/' :: behind = (body ++ ['*', '/']) ++ behind := by simp
            have hlength : body.length + 2 = (body ++ ['*', '/']).length := by simp
            rw [← hfound, List.take_succ_cons, List.drop_succ_cons, hlength, hsplit, List.take_left,
              List.drop_left]
            exact .blockComment hbody
          · next hclose =>
            rw [← hfound, List.take_length, List.drop_length]
            exact .unclosedComment (commentClose?_eq_none hclose)
        · split at hfound
          · next mark hmark =>
            rw [← hfound]
            exact reaches_mark hmark
          · rw [← hfound] at hinvalid ⊢
            rw [List.take_zero, List.drop_zero]
            exact .unknown hc (hinvalid rfl)

/-- What reaches as far as its kind says fits the pattern of the kind. -/
theorem Reaches.fits {kind : TokenKind} {text rest : List Char} (h : Reaches kind text rest)
    (hkind : kind ≠ .invalid) : Matches kind text := by
  cases h with
  | word hc hcs hrest hword hkeyword =>
    rcases hword with rfl | ⟨keyword, rfl⟩
    · exact .ident hc hcs
    · rw [(hkeyword keyword).1 rfl]
      exact .keyword keyword
  | integer hc hcs hrest => exact .integer hc hcs
  | symbol hrest => exact .symbol _
  | lineComment hbody hrest => exact .lineComment hbody
  | blockComment hbody => exact .blockComment hbody
  | string hunits => exact .string hunits
  | unknown hc hnone => exact absurd rfl hkind
  | unclosedComment hbody => exact absurd rfl hkind
  | unclosedString hunits hrest => exact absurd rfl hkind

theorem longest_lexemeAt {c : Char} (hc : isGap c = false) (cs : List Char) :
    Longest (lexemeAt c cs).1 (c :: cs.take (lexemeAt c cs).2) (cs.drop (lexemeAt c cs).2) where
  fits := (reaches_lexemeAt hc cs).fits
  longest {other longer} hstarts hmatches := by
    rw [List.cons_append, List.take_append_drop] at hstarts
    obtain ⟨d, tail, rfl⟩ := hmatches.eq_cons
    obtain ⟨rfl, rest, rfl⟩ := List.cons_prefix_cons.1 hstarts
    obtain ⟨hvalid, hlength⟩ := lexemeAt_of_matches hmatches rest
    refine ⟨hvalid, ?_⟩
    simp only [List.length_cons, List.length_take, List.length_append]
    omega

/-! ## The tiling -/

/-- The tokens and the gaps between them are the text, whose first character stands at byte
`offset`: a token starts behind its gap, stops where its own text ends, and is the longest one at
its place. -/
inductive Tiles : Nat → List Token → List Char → Prop
  | gap {offset : Nat} {gap : List Char} (hgap : ∀ c ∈ gap, isGap c = true) : Tiles offset [] gap
  | token {offset : Nat} {token : Token} {tokens : List Token} {gap rest : List Char}
      (hgap : ∀ c ∈ gap, isGap c = true) (hstart : token.start = offset + utf8Length gap)
      (hstop : token.stop = token.start + utf8Length token.text.toList)
      (hreaches : Reaches token.kind token.text.toList rest)
      (hlongest : Longest token.kind token.text.toList rest)
      (hrest : Tiles token.stop tokens rest) :
      Tiles offset (token :: tokens) (gap ++ (token.text.toList ++ rest))

theorem Tiles.cons_gap {offset : Nat} {tokens : List Token} {c : Char} {cs : List Char}
    (hc : isGap c = true) (h : Tiles (offset + c.utf8Size) tokens cs) :
    Tiles offset tokens (c :: cs) := by
  cases h with
  | gap hgap => exact .gap (List.forall_mem_cons.2 ⟨hc, hgap⟩)
  | token hgap hstart hstop hreaches hlongest hrest =>
    refine .token (List.forall_mem_cons.2 ⟨hc, hgap⟩) ?_ hstop hreaches hlongest hrest
    rw [hstart, utf8Length, Nat.add_assoc]

theorem tiles_scanFrom (offset : Nat) (cs : List Char) : Tiles offset (scanFrom offset cs) cs := by
  induction offset, cs using scanFrom.induct with
  | case1 offset =>
    rw [scanFrom]
    exact .gap (by simp)
  | case2 offset c cs hc ih =>
    rw [scanFrom, if_pos hc]
    exact ih.cons_gap hc
  | case3 offset c cs hc found lexeme stop ih =>
    have htext : (String.ofList lexeme).toList = lexeme := String.toList_ofList
    have hcs : c :: cs = [] ++ ((String.ofList lexeme).toList ++ cs.drop found.2) := by
      rw [htext, List.nil_append, List.cons_append, List.take_append_drop]
    rw [scanFrom, if_neg hc, hcs]
    refine .token (by simp) rfl ?_ ?_ ?_ ih
    · rw [htext]
    · rw [htext]
      exact reaches_lexemeAt (Bool.eq_false_iff.2 hc) cs
    · rw [htext]
      exact longest_lexemeAt (Bool.eq_false_iff.2 hc) cs

theorem Reaches.utf8Length_pos {kind : TokenKind} {text rest : List Char}
    (h : Reaches kind text rest) : 0 < utf8Length text := by
  cases h with
  | @symbol mark _ hrest => cases mark <;> exact utf8Length_cons_pos _ _
  | _ => exact utf8Length_cons_pos _ _

/-- The place of each token in the text. -/
theorem Tiles.exists_split {offset : Nat} {tokens : List Token} {cs : List Char}
    (h : Tiles offset tokens cs) {token : Token} (htoken : token ∈ tokens) :
    ∃ before rest, cs = before ++ (token.text.toList ++ rest) ∧
      token.start = offset + utf8Length before ∧
      token.stop = token.start + utf8Length token.text.toList ∧
      Reaches token.kind token.text.toList rest := by
  induction h with
  | gap hgap => cases htoken
  | @token offset head tokens gap rest hgap hstart hstop hreaches hlongest hrest ih =>
    rcases List.mem_cons.1 htoken with rfl | htoken
    · exact ⟨gap, rest, rfl, hstart, hstop, hreaches⟩
    · obtain ⟨before, behind, rfl, hplace, hend, hkind⟩ := ih htoken
      refine ⟨gap ++ (head.text.toList ++ before), behind, by simp, ?_, hend, hkind⟩
      rw [utf8Length_append, utf8Length_append]
      omega

theorem Tiles.pairwise {offset : Nat} {tokens : List Token} {cs : List Char}
    (h : Tiles offset tokens cs) :
    tokens.Pairwise fun token later => token.stop ≤ later.start := by
  induction h with
  | gap hgap => exact .nil
  | token hgap hstart hstop hreaches hlongest hrest ih =>
    refine .cons (fun later hlater => ?_) ih
    obtain ⟨before, behind, -, hplace, -⟩ := hrest.exists_split hlater
    omega

/-! ## The tokens of a text -/

section Scan

variable {text : String} {token : Token}

theorem tiles_scan (text : String) : Tiles 0 (scan text) text.toList :=
  tiles_scanFrom 0 text.toList

theorem start_lt_stop_of_mem_scan (h : token ∈ scan text) : token.start < token.stop := by
  obtain ⟨before, rest, htext, hstart, hstop, hreaches⟩ := (tiles_scan text).exists_split h
  have hpos := hreaches.utf8Length_pos
  omega

theorem stop_le_of_mem_scan (h : token ∈ scan text) : token.stop ≤ text.utf8ByteSize := by
  obtain ⟨before, rest, htext, hstart, hstop, hreaches⟩ := (tiles_scan text).exists_split h
  rw [utf8ByteSize_eq, htext, utf8Length_append, utf8Length_append]
  omega

theorem extract_of_mem_scan (h : token ∈ scan text) :
    text.toUTF8.extract token.start token.stop = token.text.toUTF8 := by
  obtain ⟨before, rest, htext, hstart, hstop, hreaches⟩ := (tiles_scan text).exists_split h
  rw [hstop, hstart, Nat.zero_add]
  exact extract_toUTF8 htext

theorem text_of_mem_scan {mark : Symbol} (h : token ∈ scan text)
    (hkind : token.kind = .symbol mark) : token.text = String.ofList mark.chars := by
  obtain ⟨before, rest, htext, hstart, hstop, hreaches⟩ := (tiles_scan text).exists_split h
  rw [hkind] at hreaches
  have hfits := hreaches.fits nofun
  generalize hchars : token.text.toList = chars at hfits
  cases hfits
  rw [← hchars, String.ofList_toList]

end Scan

/-- The tokens tile the text, and each stands between its byte offsets. -/
structure Tiling (text : String) (tokens : List Token) : Prop where
  tiles : Tiles 0 tokens text.toList
  nonempty : ∀ token ∈ tokens, token.start < token.stop
  ordered : tokens.Pairwise fun token later => token.stop ≤ later.start
  inside : ∀ token ∈ tokens, token.stop ≤ text.utf8ByteSize
  slices : ∀ token ∈ tokens, text.toUTF8.extract token.start token.stop = token.text.toUTF8

theorem tiling_scan (text : String) : Tiling text (scan text) where
  tiles := tiles_scan text
  nonempty _ := start_lt_stop_of_mem_scan
  ordered := (tiles_scan text).pairwise
  inside _ := stop_le_of_mem_scan
  slices _ := extract_of_mem_scan

end Token

end CrossModel
