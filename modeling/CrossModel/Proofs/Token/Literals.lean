import CrossModel.Proofs.Token.Tiling

/-!
# Quoted literals

The scanner and the decoder both go through a quoted text unit by unit. Here a quoted text is
written from its units, so that where it ends and what it stands for can be read off: the scanner
stops at the closing quote, whatever follows, and the decoder gives one character for each unit.
-/

namespace CrossModel

namespace Quoted

/-! ## Decoding -/

theorem decodeUnits_cons {c : Char} (hslash : c ≠ '\\') (cs : List Char) :
    decodeUnits (c :: cs) = c :: decodeUnits cs := by
  simp [decodeUnits, hslash]

theorem decodeUnits_escape (c : Char) (cs : List Char) :
    decodeUnits ('\\' :: c :: cs) = escaped c :: decodeUnits cs := rfl

/-- The decoder drops the quotes and decodes what is between them. -/
theorem decode_ofList (units : List Char) :
    decode (String.ofList ('"' :: (units ++ ['"']))) = String.ofList (decodeUnits units) := by
  simp [decode]

theorem length_decodeUnits_le (units : List Char) :
    (decodeUnits units).length ≤ units.length := by
  induction units using decodeUnits.induct with
  | case1 => exact Nat.le_refl _
  | case2 => exact Nat.zero_le _
  | case3 c cs ih =>
    rw [decodeUnits_escape]
    simp only [List.length_cons]
    omega
  | case4 c cs hlone hpair ih =>
    rw [decodeUnits.eq_4 _ _ hlone hpair]
    simp only [List.length_cons]
    omega

/-- Units that are not shortened by decoding hold no escapes, so they stand for themselves. -/
theorem decodeUnits_of_length_le {units : List Char} (h : Units units)
    (hlength : units.length ≤ (decodeUnits units).length) :
    '"' ∉ units ∧ '\\' ∉ units ∧ decodeUnits units = units := by
  induction h with
  | nil => simp [decodeUnits]
  | @plain c cs hquote hslash hcs ih =>
    rw [decodeUnits_cons hslash] at hlength ⊢
    simp only [List.length_cons] at hlength
    obtain ⟨hquotes, hslashes, hvalue⟩ := ih (by omega)
    simp [hquotes, hslashes, hvalue, hquote.symm, hslash.symm]
  | @escape c cs hc hcs ih =>
    have hle := length_decodeUnits_le cs
    rw [decodeUnits_escape] at hlength
    simp only [List.length_cons] at hlength
    omega

theorem units_of_plain {cs : List Char} (hquote : '"' ∉ cs) (hslash : '\\' ∉ cs) : Units cs := by
  induction cs with
  | nil => exact .nil
  | cons c cs ih =>
    rw [List.mem_cons, not_or] at hquote hslash
    exact .plain (Ne.symm hquote.1) (Ne.symm hslash.1) (ih hquote.2 hslash.2)

theorem decodeUnits_of_plain {cs : List Char} (hslash : '\\' ∉ cs) : decodeUnits cs = cs := by
  induction cs with
  | nil => rfl
  | cons c cs ih =>
    rw [List.mem_cons, not_or] at hslash
    rw [decodeUnits_cons (Ne.symm hslash.1), ih hslash.2]

theorem length_decode_lt {text : String} (h : text ≠ "") :
    (decode text).length < text.length := by
  have hunits := length_decodeUnits_le text.toList.tail.dropLast
  have hpos : text.toList.length ≠ 0 := by
    rw [ne_eq, List.length_eq_zero_iff]
    exact mt String.toList_eq_nil_iff.1 h
  rw [List.length_dropLast, List.length_tail] at hunits
  rw [← String.length_toList, ← String.length_toList, decode, String.toList_ofList]
  omega

/-- A path between quotes that is read as itself ends at its own closing quote, and so holds neither
quotes nor backslashes, or it ends at a quote further behind. -/
theorem plain_or_behind {path units suffix behind : List Char} (hunits : Units units)
    (hpath : path = decodeUnits units) (h : path ++ '"' :: suffix = units ++ '"' :: behind) :
    ('"' ∉ path ∧ '\\' ∉ path ∧ behind = suffix) ∨ ∃ inner, suffix = inner ++ '"' :: behind := by
  have hlength : path.length ≤ units.length := hpath ▸ length_decodeUnits_le units
  obtain ⟨between, rfl⟩ : path <+: units :=
    List.prefix_of_prefix_length_le ⟨_, rfl⟩ ⟨_, h.symm⟩ hlength
  rw [List.append_assoc] at h
  have hrest := (List.append_cancel_left h : '"' :: suffix = between ++ '"' :: behind)
  cases between with
  | nil =>
    rw [List.append_nil] at hunits hpath
    have hkept : path.length ≤ (decodeUnits path).length := Nat.le_of_eq (congrArg _ hpath)
    obtain ⟨hquote, hslash, -⟩ := decodeUnits_of_length_le hunits hkept
    exact .inl ⟨hquote, hslash, (List.cons.inj hrest).2.symm⟩
  | cons quote inner => exact .inr ⟨inner, (List.cons.inj hrest).2⟩

/-! ## Units as pieces of a literal -/

/-- A unit of a quoted text. -/
inductive Piece where
  | plain (c : Char) (hquote : c ≠ '"') (hslash : c ≠ '\\')
  | escape (c : Char) (hfeed : c ≠ '\n')

namespace Piece

/-- The unit as it is written. -/
def chars : Piece → List Char
  | plain c _ _ => [c]
  | escape c _ => ['\\', c]

/-- The character that the unit stands for. -/
def value : Piece → Char
  | plain c _ _ => c
  | escape 'n' _ => '\n'
  | escape 't' _ => '\t'
  | escape c _ => c

/-- The unit that stands for a character: quotes and backslashes are escaped. -/
def of (c : Char) : Piece :=
  if h : c = '"' ∨ c = '\\' then .escape c (by rintro rfl; simp at h)
  else .plain c (fun hquote => h (.inl hquote)) (fun hslash => h (.inr hslash))

theorem value_escape (c : Char) (hfeed : c ≠ '\n') : (escape c hfeed).value = escaped c := by
  unfold value escaped
  split <;> simp_all

theorem value_of (c : Char) : (of c).value = c := by
  unfold of
  split
  · next h => rcases h with rfl | rfl <;> rfl
  · rfl

end Piece

/-- What stands between the quotes. -/
def body (pieces : List Piece) : List Char :=
  pieces.flatMap Piece.chars

/-- The units between quotes. -/
def literal (pieces : List Piece) : String :=
  String.ofList ('"' :: (body pieces ++ ['"']))

/-- The text between quotes, with a backslash before each quote and each backslash. -/
def quoted (text : String) : String :=
  literal (text.toList.map Piece.of)

theorem units_body (pieces : List Piece) : Units (body pieces) := by
  induction pieces with
  | nil => exact .nil
  | cons piece pieces ih =>
    cases piece with
    | plain c hquote hslash => exact .plain hquote hslash ih
    | escape c hfeed => exact .escape hfeed ih

theorem decodeUnits_body (pieces : List Piece) :
    decodeUnits (body pieces) = pieces.map Piece.value := by
  induction pieces with
  | nil => rfl
  | cons piece pieces ih =>
    cases piece with
    | plain c hquote hslash =>
      change decodeUnits (c :: body pieces) = _
      rw [decodeUnits_cons hslash, ih]
      rfl
    | escape c hfeed =>
      change decodeUnits ('\\' :: c :: body pieces) = _
      rw [decodeUnits_escape, ih, List.map_cons, Piece.value_escape]

theorem toList_literal_append (pieces : List Piece) (behind : List Char) :
    (literal pieces).toList ++ behind = '"' :: (body pieces ++ '"' :: behind) := by
  simp [literal]

theorem decode_literal (pieces : List Piece) :
    decode (literal pieces) = String.ofList (pieces.map Piece.value) := by
  rw [literal, decode_ofList, decodeUnits_body]

theorem decode_quoted (text : String) : decode (quoted text) = text := by
  have hvalue : Piece.value ∘ Piece.of = id := funext Piece.value_of
  rw [quoted, decode_literal, List.map_map, hvalue, List.map_id, String.ofList_toList]

end Quoted

/-! ## Scanning -/

namespace Token

open Quoted

/-- A string reaches to the quote behind its units, whatever follows. -/
theorem lexemeAt_units {units : List Char} (h : Units units) (behind : List Char) :
    lexemeAt '"' ((units ++ ['"']) ++ behind) = (.string, (units ++ ['"']).length) := by
  have hclosed : Quoted.measure ('"' :: behind) = (1, true) := rfl
  rw [List.append_assoc, List.singleton_append, lexemeAt_quote, measure_append h, hclosed,
    List.length_append, List.length_singleton, Nat.add_comm]
  rfl

/-- Units that do not come to a quote are invalid. -/
theorem lexemeAt_halted {units rest : List Char} (h : Units units) (hrest : Halts rest) :
    lexemeAt '"' (units ++ rest) = (.invalid, units.length) := by
  rw [lexemeAt_quote, measure_append h, measure_of_halts hrest, Nat.zero_add]
  rfl

theorem scanFrom_literal (pieces : List Piece) (behind : List Char) (offset : Nat) :
    scanFrom offset ((literal pieces).toList ++ behind) =
      { kind := .string, text := literal pieces, start := offset,
        stop := offset + (literal pieces).utf8ByteSize } ::
          scanFrom (offset + (literal pieces).utf8ByteSize) behind := by
  have hfound := lexemeAt_units (units_body pieces) behind
  rw [literal, String.toList_ofList, List.cons_append, scanFrom, if_neg (by decide)]
  simp only [hfound, List.take_left, List.drop_left, utf8ByteSize_ofList]

theorem words_units {units : List Char} (h : Units units) (behind : List Char) :
    words ('"' :: (units ++ '"' :: behind)) =
      (.string, String.ofList ('"' :: (units ++ ['"']))) :: words behind := by
  have hwords := words_cons (by decide) (lexemeAt_units h behind)
  rw [List.append_assoc] at hwords
  exact hwords

theorem words_literal (pieces : List Piece) (behind : List Char) :
    words ((literal pieces).toList ++ behind) = (.string, literal pieces) :: words behind := by
  rw [toList_literal_append, words_units (units_body pieces)]
  rfl

/-- A string that is found is made of units up to the first quote that closes them. -/
theorem exists_units_of_words {cs : List Char} {text : String} {more : List (TokenKind × String)}
    (h : words ('"' :: cs) = (.string, text) :: more) :
    ∃ units behind, Units units ∧ cs = units ++ '"' :: behind ∧
      text = String.ofList ('"' :: (units ++ ['"'])) ∧ more = words behind := by
  obtain ⟨units, rest, hunits, rfl, ⟨behind, rfl⟩ | hrest⟩ := Quoted.exists_units cs
  · rw [words_units hunits] at h
    cases h
    exact ⟨units, behind, hunits, rfl, rfl, rfl⟩
  · rw [words_cons (by decide) (lexemeAt_halted hunits hrest)] at h
    cases h

end Token

end CrossModel
