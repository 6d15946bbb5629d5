import CrossModel.Proofs.Document.Reading
import CrossModel.Proofs.Token.Spacing
import Mathlib.Order.CompletePartialOrder

/-!
# Where readers stop

`Stops reader form` says where a reader comes to an end. If it succeeds, it has consumed a phrase of
the form. If it fails, then at the first lexeme with which no phrase can go on: what stands before
this lexeme begins a phrase, and the error is that of this lexeme. In both cases the reader has seen
nothing behind the next lexeme, so it does the same before any other lexemes that start with this
one.

Each combinator of the parser has one lemma here. The missing part of a phrase has to consist of
lexemes, so that it can be written down; a form of which this is true of one phrase is `Spellable`.
-/

namespace CrossModel

open Grammar
open scoped Computability

/-! ## Beginnings of phrases -/

namespace Grammar

/-- Every word is the text of a lexeme of its kind. -/
def Spelled (phrase : List Word) : Prop :=
  ∀ word ∈ phrase, Token.Lexes word.1 word.2.toList

theorem Spelled.append {front back : List Word} (hfront : Spelled front) (hback : Spelled back) :
    Spelled (front ++ back) :=
  List.forall_mem_append.2 ⟨hfront, hback⟩

/-- The form has a phrase that can be written down. -/
def Spellable (form : Form) : Prop := ∃ phrase ∈ form, Spelled phrase

theorem spellable_of_nil_mem {form : Form} (h : [] ∈ form) : Spellable form := ⟨[], h, nofun⟩

theorem spellable_word {kind : TokenKind} {text : String} (h : Token.Lexes kind text.toList) :
    Spellable (word kind) :=
  ⟨[(kind, text)], ⟨text, rfl⟩, List.forall_mem_singleton.2 h⟩

theorem Spellable.mul {first second : Form} (hfirst : Spellable first)
    (hsecond : Spellable second) : Spellable (first * second) := by
  obtain ⟨front, hfront, hspelled⟩ := hfirst
  obtain ⟨back, hback, hspelled'⟩ := hsecond
  exact ⟨front ++ back, Language.append_mem_mul hfront hback, hspelled.append hspelled'⟩

theorem Spellable.mono {form other : Form} (h : Spellable form)
    (hsub : form ≤ other) : Spellable other := by
  obtain ⟨phrase, hphrase, hspelled⟩ := h
  exact ⟨phrase, hsub hphrase, hspelled⟩

end Grammar

/-- The lexemes are valid and form a phrase. -/
structure Phrase (form : Form) (used : List Lexeme) : Prop where
  valid : ∀ lexeme ∈ used, lexeme.kind ≠ .invalid
  mem : used.map Lexeme.word ∈ form

/-- The lexemes are valid and begin a phrase, whose missing part can be written down. -/
structure Begins (form : Form) (used : List Lexeme) : Prop where
  valid : ∀ lexeme ∈ used, lexeme.kind ≠ .invalid
  mem : ∃ missing, Spelled missing ∧ used.map Lexeme.word ++ missing ∈ form

theorem phrase_nil {form : Form} (h : [] ∈ form) : Phrase form [] := ⟨nofun, h⟩

theorem Phrase.mono {form other : Form} {used : List Lexeme} (h : Phrase form used)
    (hsub : form ≤ other) : Phrase other used :=
  ⟨h.valid, hsub h.mem⟩

theorem Phrase.append {first second : Form} {used others : List Lexeme} (h : Phrase first used)
    (hothers : Phrase second others) : Phrase (first * second) (used ++ others) where
  valid := List.forall_mem_append.2 ⟨h.valid, hothers.valid⟩
  mem := by
    rw [List.map_append]
    exact Language.append_mem_mul h.mem hothers.mem

theorem begins_nil {form : Form} (h : Spellable form) : Begins form [] := by
  obtain ⟨phrase, hphrase, hspelled⟩ := h
  exact ⟨nofun, phrase, hspelled, hphrase⟩

theorem Begins.mono {form other : Form} {used : List Lexeme} (h : Begins form used)
    (hsub : form ≤ other) : Begins other used := by
  obtain ⟨hvalid, missing, hspelled, hmem⟩ := h
  exact ⟨hvalid, missing, hspelled, hsub hmem⟩

theorem Begins.mul {first second : Form} {used : List Lexeme} (h : Begins first used)
    (hsecond : Spellable second) : Begins (first * second) used := by
  obtain ⟨hvalid, missing, hspelled, hmem⟩ := h
  obtain ⟨phrase, hphrase, hspelled'⟩ := hsecond
  refine ⟨hvalid, missing ++ phrase, hspelled.append hspelled', ?_⟩
  rw [← List.append_assoc]
  exact Language.append_mem_mul hmem hphrase

theorem Phrase.append_begins {first second : Form} {used others : List Lexeme}
    (h : Phrase first used) (hothers : Begins second others) :
    Begins (first * second) (used ++ others) := by
  obtain ⟨hvalid, missing, hspelled, hmem⟩ := hothers
  refine ⟨List.forall_mem_append.2 ⟨h.valid, hvalid⟩, missing, hspelled, ?_⟩
  rw [List.map_append, List.append_assoc]
  exact Language.append_mem_mul h.mem hmem

/-! ## Errors and cursors -/

/-- Whether the fault is one of a single token. -/
def ParseFault.isOfToken : ParseFault → Bool
  | emptyDocument | unexpectedEnd _ => false
  | _ => true

/-- The error is that of the next lexeme, or that of the end of the text if there is none. -/
def ParseError.PointsAt (error : ParseError) (finish : Position) : List Lexeme → Prop
  | [] => (∃ expected, error.fault = .unexpectedEnd expected) ∧ error.span = .point finish
  | lexeme :: _ =>
    error.fault.isOfToken = true ∧ error.span = lexeme.span ∧
      ∀ text, error.fault = .invalidToken text ↔ lexeme.kind = .invalid ∧ text = lexeme.text

theorem pointsAt_mismatch (cursor : Cursor) (expected : Expected) :
    (cursor.mismatch expected).PointsAt cursor.finish cursor.rest := by
  unfold Cursor.mismatch
  cases cursor.rest with
  | nil => exact ⟨⟨expected, rfl⟩, rfl⟩
  | cons lexeme rest =>
    dsimp only
    split
    · next hkind =>
      refine ⟨rfl, rfl, fun text => ?_⟩
      simp [hkind, eq_comm]
    · next hkind =>
      refine ⟨rfl, rfl, fun text => ?_⟩
      simp [hkind]

namespace Cursor

/-- The cursor before other lexemes. -/
def before (cursor : Cursor) (rest : List Lexeme) : Cursor := { cursor with rest }

variable {cursor : Cursor} {rest : List Lexeme}

theorem next?_before (h : rest.head? = cursor.rest.head?) :
    (cursor.before rest).next? = cursor.next? := by
  rw [next?, next?, ← h]
  rfl

theorem start_before (h : rest.head? = cursor.rest.head?) :
    (cursor.before rest).start = cursor.start := by
  obtain ⟨lexemes, passed, finish⟩ := cursor
  cases rest <;> cases lexemes <;> cases h <;> rfl

theorem mismatch_before (h : rest.head? = cursor.rest.head?) (expected : Expected) :
    (cursor.before rest).mismatch expected = cursor.mismatch expected := by
  obtain ⟨lexemes, passed, finish⟩ := cursor
  cases rest <;> cases lexemes <;> cases h <;> rfl

theorem rest_eq_cons_of_next? {kind : TokenKind} (h : cursor.next? = some kind) :
    ∃ lexeme rest, cursor.rest = lexeme :: rest ∧ lexeme.kind = kind := by
  obtain ⟨lexemes, passed, finish⟩ := cursor
  cases lexemes with
  | nil => cases h
  | cons lexeme rest => exact ⟨lexeme, rest, rfl, Option.some.inj h⟩

end Cursor

theorem head?_append_congr {used rest other : List Lexeme} (h : other.head? = rest.head?) :
    (used ++ other).head? = (used ++ rest).head? := by
  rw [List.head?_append, List.head?_append, h]

namespace Parser

variable {α β : Type}

/-! ## The relation -/

/-- Where the reader stops if it starts at this cursor. -/
structure StopsAt (reader : Parser α) (form : Form) (cursor : Cursor) : Prop where
  done : ∀ {value ahead}, reader cursor = .ok (value, ahead) →
    ∃ used, cursor.rest = used ++ ahead.rest ∧ ahead.finish = cursor.finish ∧ Phrase form used ∧
      ∀ other, other.head? = ahead.rest.head? →
        reader (cursor.before (used ++ other)) = .ok (value, ahead.before other)
  fails : ∀ {error}, reader cursor = .error error →
    ∃ used rest, cursor.rest = used ++ rest ∧ error.PointsAt cursor.finish rest ∧
      Begins form used ∧
      ∀ other, other.head? = rest.head? → reader (cursor.before (used ++ other)) = .error error

/-- Where the reader stops, wherever it starts. -/
structure Stops (reader : Parser α) (form : Form) : Prop where
  spellable : Spellable form
  stopsAt : ∀ cursor, StopsAt reader form cursor

theorem bind_eq_error_iff {reader : Parser α} {further : α → Parser β} {cursor : Cursor}
    {error : ParseError} :
    (reader >>= further) cursor = .error error ↔ reader cursor = .error error ∨
      ∃ value between, reader cursor = .ok (value, between) ∧
        further value between = .error error := by
  change (reader cursor >>= fun result => further result.1 result.2) = _ ↔ _
  cases hreader : reader cursor with
  | error error => simp [bind, Except.bind]
  | ok result =>
    obtain ⟨first, between⟩ := result
    simp [bind, Except.bind]

theorem StopsAt.mono {reader : Parser α} {form other : Form} {cursor : Cursor}
    (h : StopsAt reader form cursor) (hsub : form ≤ other) :
    StopsAt reader other cursor where
  done hread := by
    obtain ⟨used, hused, hfinish, hphrase, hsame⟩ := h.done hread
    exact ⟨used, hused, hfinish, hphrase.mono hsub, hsame⟩
  fails hread := by
    obtain ⟨used, rest, hused, hpoints, hbegins, hsame⟩ := h.fails hread
    exact ⟨used, rest, hused, hpoints, hbegins.mono hsub, hsame⟩

theorem stops_pure (value : α) : Stops (pure value) 1 where
  spellable := spellable_of_nil_mem rfl
  stopsAt cursor := by
    refine ⟨?_, nofun⟩
    intro _ _ hread
    cases hread
    exact ⟨[], rfl, rfl, phrase_nil rfl, fun _ _ => rfl⟩

/-- A reader that does what another one does before this lexeme. -/
theorem StopsAt.of_eq {reader other : Parser α} {form : Form} {cursor : Cursor}
    (h : StopsAt other form cursor)
    (heq : ∀ rest, rest.head? = cursor.rest.head? →
      reader (cursor.before rest) = other (cursor.before rest)) :
    StopsAt reader form cursor := by
  have hself : reader cursor = other cursor := heq cursor.rest rfl
  constructor
  · intro value ahead hread
    obtain ⟨used, hused, hfinish, hphrase, hsame⟩ := h.done (hself ▸ hread)
    refine ⟨used, hused, hfinish, hphrase, fun rest hrest => ?_⟩
    rw [heq _ (hused ▸ head?_append_congr hrest)]
    exact hsame rest hrest
  · intro error hread
    obtain ⟨used, rest, hused, hpoints, hbegins, hsame⟩ := h.fails (hself ▸ hread)
    refine ⟨used, rest, hused, hpoints, hbegins, fun rest hrest => ?_⟩
    rw [heq _ (hused ▸ head?_append_congr hrest)]
    exact hsame rest hrest

theorem StopsAt.bind {reader : Parser α} {further : α → Parser β} {first second : Form}
    {cursor : Cursor} (h : StopsAt reader first cursor) (hspellable : Spellable second)
    (hfurther : ∀ {value between}, reader cursor = .ok (value, between) →
      StopsAt (further value) second between) :
    StopsAt (reader >>= further) (first * second) cursor where
  done hread := by
    obtain ⟨value, between, hvalue, hread⟩ := bind_eq_ok_iff.1 hread
    obtain ⟨used, hused, hfinish, hphrase, hsame⟩ := h.done hvalue
    obtain ⟨others, hothers, hfinish', hphrase', hsame'⟩ := (hfurther hvalue).done hread
    refine ⟨used ++ others, by rw [hused, hothers, List.append_assoc], hfinish'.trans hfinish,
      hphrase.append hphrase', fun other hother => ?_⟩
    have hbetween := hsame (others ++ other) (hothers ▸ head?_append_congr hother)
    rw [List.append_assoc]
    exact bind_eq_ok_iff.2 ⟨value, _, hbetween, hsame' other hother⟩
  fails hread := by
    rcases bind_eq_error_iff.1 hread with herror | ⟨value, between, hvalue, herror⟩
    · obtain ⟨used, rest, hused, hpoints, hbegins, hsame⟩ := h.fails herror
      refine ⟨used, rest, hused, hpoints, hbegins.mul hspellable, fun other hother => ?_⟩
      exact bind_eq_error_iff.2 (.inl (hsame other hother))
    · obtain ⟨used, hused, hfinish, hphrase, hsame⟩ := h.done hvalue
      obtain ⟨others, rest, hothers, hpoints, hbegins, hsame'⟩ := (hfurther hvalue).fails herror
      rw [hfinish] at hpoints
      refine ⟨used ++ others, rest, by rw [hused, hothers, List.append_assoc], hpoints,
        hphrase.append_begins hbegins, fun other hother => ?_⟩
      have hbetween := hsame (others ++ other) (hothers ▸ head?_append_congr hother)
      rw [List.append_assoc]
      exact bind_eq_error_iff.2 (.inr ⟨value, _, hbetween, hsame' other hother⟩)

theorem Stops.bind [Inhabited α] {reader : Parser α} {further : α → Parser β}
    {first second : Form} (h : Stops reader first)
    (hfurther : ∀ value, Stops (further value) second) :
    Stops (reader >>= further) (first * second) where
  spellable := h.spellable.mul (hfurther default).spellable
  stopsAt cursor := (h.stopsAt cursor).bind (hfurther default).spellable
    fun _ => (hfurther _).stopsAt _

theorem StopsAt.bind_pure {reader : Parser α} {further : α → Parser β} {form : Form}
    {cursor : Cursor} (h : StopsAt reader form cursor)
    (hpure : ∀ value, ∃ result, further value = pure result) :
    StopsAt (reader >>= further) form cursor := by
  rw [← mul_one form]
  apply h.bind (stops_pure ()).spellable
  intro value between _
  obtain ⟨result, hresult⟩ := hpure value
  rw [hresult]
  exact (stops_pure result).stopsAt between

theorem Stops.bind_pure {reader : Parser α} {further : α → Parser β} {form : Form}
    (h : Stops reader form) (hpure : ∀ value, ∃ result, further value = pure result) :
    Stops (reader >>= further) form :=
  ⟨h.spellable, fun cursor => (h.stopsAt cursor).bind_pure hpure⟩

theorem Stops.map {reader : Parser α} {form : Form} (h : Stops reader form) (change : α → β) :
    Stops (reader >>= fun value => pure (change value)) form :=
  h.bind_pure fun value => ⟨change value, rfl⟩

/-! ## Single lexemes -/

theorem stopsAt_reject {form : Form} (h : Spellable form) (expected : Expected) (cursor : Cursor) :
    StopsAt (reject expected : Parser α) form cursor := by
  refine ⟨nofun, ?_⟩
  intro error hread
  cases hread
  refine ⟨[], cursor.rest, rfl, pointsAt_mismatch cursor expected, begins_nil h, ?_⟩
  intro other hother
  exact congrArg Except.error (Cursor.mismatch_before hother expected)

theorem stopsAt_accept?_self {kind : TokenKind} {cursor : Cursor} (h : cursor.next? = some kind)
    (hkind : kind ≠ .invalid) : StopsAt (accept? kind) (word kind) cursor := by
  obtain ⟨lexeme, rest, hrest, rfl⟩ := Cursor.rest_eq_cons_of_next? h
  obtain ⟨lexemes, passed, finish⟩ := cursor
  subst hrest
  have hread (others : List Lexeme) := accept?_self (rfl : lexeme.kind = _) others passed finish
  constructor
  · intro value ahead hvalue
    rw [hread] at hvalue
    cases hvalue
    have hphrase : Phrase (word lexeme.kind) [lexeme] :=
      ⟨List.forall_mem_singleton.2 hkind, lexeme.text, rfl⟩
    exact ⟨[lexeme], rfl, rfl, hphrase, fun other _ => hread other⟩
  · intro error herror
    rw [hread] at herror
    cases herror

theorem stopsAt_accept?_other {kind : TokenKind} {cursor : Cursor} (h : cursor.next? ≠ some kind) :
    StopsAt (accept? kind) 1 cursor := by
  apply ((stops_pure none).stopsAt cursor).of_eq
  intro rest hrest
  apply accept?_other
  rwa [Cursor.next?_before hrest]

theorem expect_other {kind : TokenKind} {cursor : Cursor} (h : cursor.next? ≠ some kind) :
    expect kind cursor = .error (cursor.mismatch (.token kind)) :=
  bind_eq_error_iff.2 (.inr ⟨none, cursor, accept?_other h, rfl⟩)

/-- A reader that depends on whether the next lexeme is of a kind. -/
theorem Stops.accept?_bind {further : Option Lexeme → Parser α} {first second : Form}
    (kind : TokenKind) (hkind : kind ≠ .invalid)
    (hpresent : ∀ lexeme, Stops (further (some lexeme)) first)
    (habsent : Stops (further none) second) :
    Stops (accept? kind >>= further) (word kind * first + second) where
  spellable := habsent.spellable.mono fun _ => Or.inr
  stopsAt cursor := by
    by_cases hnext : cursor.next? = some kind
    · have h := stopsAt_accept?_self hnext hkind
      refine (h.bind (hpresent default).spellable ?_).mono fun _ => Or.inl
      intro found between hfound
      obtain ⟨lexeme, rest, hrest, hlexeme⟩ := Cursor.rest_eq_cons_of_next? hnext
      have hread := accept?_self hlexeme rest cursor.passed cursor.finish
      rw [← hrest] at hread
      cases hread.symm.trans hfound
      exact (hpresent lexeme).stopsAt _
    · have h : StopsAt (accept? kind >>= further) (1 * second) cursor := by
        apply (stopsAt_accept?_other hnext).bind habsent.spellable
        intro found between hfound
        cases (accept?_other hnext).symm.trans hfound
        exact habsent.stopsAt cursor
      rw [one_mul] at h
      exact h.mono fun _ => Or.inr

theorem stops_reject {form : Form} (h : Spellable form) (expected : Expected) :
    Stops (reject expected : Parser α) form :=
  ⟨h, stopsAt_reject h expected⟩

theorem stops_accept? (kind : TokenKind) (hkind : kind ≠ .invalid) :
    Stops (accept? kind) (opt (word kind)) := by
  have h : Stops (accept? kind >>= pure) (word kind * 1 + 1) :=
    Stops.accept?_bind kind hkind (fun lexeme => stops_pure (some lexeme)) (stops_pure none)
  rwa [bind_pure, mul_one, add_comm] at h

theorem stops_expect {kind : TokenKind} {text : String} (h : Token.Lexes kind text.toList) :
    Stops (expect kind) (word kind) := by
  have hstops : Stops (expect kind) (word kind * 1 + word kind) :=
    Stops.accept?_bind kind h.ne_invalid (fun lexeme => stops_pure lexeme)
      (stops_reject (spellable_word h) (.token kind))
  rwa [mul_one, add_idem] at hstops

theorem stops_keyword (keyword : Keyword) : Stops (Parser.keyword keyword) (kw keyword) :=
  (stops_expect (Token.lexes_keyword keyword)).map _

theorem stops_symbol (mark : Symbol) : Stops (Parser.symbol mark) (sym mark) :=
  (stops_expect (Token.lexes_symbol mark)).map _

theorem Stops.closed [Inhabited α] {body : Parser α} {form : Form} (h : Stops body form)
    (close : Symbol) (change : α → β) :
    Stops (body >>= fun value => symbol close >>= fun _ => pure (change value))
      (form * sym close) :=
  h.bind fun value => (stops_symbol close).map fun _ => change value

theorem Stops.after? {item : Parser α} {form : Form} (h : Stops item form) (kind : TokenKind)
    (hkind : kind ≠ .invalid) : Stops (Parser.after? kind item) (opt (word kind * form)) := by
  rw [opt, add_comm]
  exact Stops.accept?_bind kind hkind (fun _ => h.map some) (stops_pure none)

/-! ## Looking ahead -/

/-- A reader that chooses by the next lexeme. -/
theorem StopsAt.next?_bind {further : Option TokenKind → Parser α} {form : Form} {cursor : Cursor}
    (h : StopsAt (further cursor.next?) form cursor) : StopsAt (next? >>= further) form cursor := by
  apply h.of_eq
  intro rest hrest
  change further (cursor.before rest).next? (cursor.before rest) = _
  rw [Cursor.next?_before hrest]

theorem Stops.next?_ite {kind : TokenKind} {reader other : Parser α} {first second : Form}
    (hreader : Stops reader first) (hother : Stops other second) :
    Stops (next? >>= fun next => if next = some kind then reader else other)
      (first + second) where
  spellable := hreader.spellable.mono fun _ => Or.inl
  stopsAt cursor := by
    apply StopsAt.next?_bind
    split
    · exact (hreader.stopsAt cursor).mono fun _ => Or.inl
    · exact (hother.stopsAt cursor).mono fun _ => Or.inr

/-! ## Spans and loops -/

theorem Stops.spanned {item : Parser α} {form : Form} (h : Stops item form) :
    Stops (spanned item) form where
  spellable := h.spellable
  stopsAt cursor := by
    have hspan (value : α) : Stops (do
        return (value, (⟨cursor.start, (← get).passed⟩ : Span))) 1 := by
      refine ⟨(stops_pure ()).spellable, fun cursor => ⟨?_, nofun⟩⟩
      intro _ _ hread
      cases hread
      exact ⟨[], rfl, rfl, phrase_nil rfl, fun _ _ => rfl⟩
    have hitem := (h.stopsAt cursor).bind (stops_pure ()).spellable fun {value between} _ =>
      (hspan value).stopsAt between
    rw [mul_one] at hitem
    apply hitem.of_eq
    intro rest hrest
    rw [← Cursor.start_before hrest]
    rfl

/-- An item that is never empty makes the loop shorter. -/
theorem Stops.length_lt {item : Parser α} {form : Form} {starts : List TokenKind}
    (h : Stops item form) (hstarts : Starts form starts) {cursor ahead : Cursor} {value : α}
    (hitem : item cursor = .ok (value, ahead)) : ahead.rest.length < cursor.rest.length := by
  obtain ⟨used, hused, -, hphrase, -⟩ := (h.stopsAt cursor).done hitem
  obtain ⟨first, others, hfirst, -⟩ := hstarts _ hphrase.mem
  obtain ⟨lexeme, lexemes, rfl, -, -⟩ := List.map_eq_cons_iff.1 hfirst
  rw [hused]
  simp only [List.cons_append, List.length_cons, List.length_append]
  omega

theorem Stops.repeatWhile_eq_bind {item : Parser α} {form : Form} {starts : List TokenKind}
    (h : Stops item form) (hstarts : Starts form starts) {more : Option TokenKind → Bool}
    {cursor : Cursor} (hmore : more cursor.next? = true) :
    repeatWhile more item cursor =
      (item >>= fun value => repeatWhile more item >>= fun values => pure (value :: values))
        cursor := by
  rw [Parser.repeatWhile, if_pos hmore]
  change _ = (item cursor >>= fun result => (Parser.repeatWhile more item >>= fun values =>
    pure (result.1 :: values)) result.2)
  cases hitem : item cursor with
  | error error => rfl
  | ok result =>
    obtain ⟨value, between⟩ := result
    simp only [h.length_lt hstarts hitem, if_true]
    change _ = (Parser.repeatWhile more item between >>= fun result =>
      pure (value :: result.1, result.2))
    cases Parser.repeatWhile more item between <;> rfl

theorem Stops.repeatWhile {item : Parser α} {form : Form} {starts : List TokenKind}
    (h : Stops item form) (hstarts : Starts form starts) (more : Option TokenKind → Bool) :
    Stops (repeatWhile more item) form∗ where
  spellable := spellable_of_nil_mem (Language.nil_mem_kstar form)
  stopsAt cursor := by
    -- A round is an item and then the loop before fewer lexemes: the induction is on their number.
    induction hlength : cursor.rest.length using Nat.strong_induction_on generalizing cursor with
    | h length ih =>
      subst hlength
      by_cases hmore : more cursor.next? = true
      · have hround : StopsAt (item >>= fun value => Parser.repeatWhile more item >>= fun values =>
            pure (value :: values)) (form * form∗) cursor := by
          apply (h.stopsAt cursor).bind (spellable_of_nil_mem (Language.nil_mem_kstar form))
          intro value between hvalue
          have hrest := ih _ (h.length_lt hstarts hvalue) between rfl
          exact hrest.bind_pure fun values => ⟨value :: values, rfl⟩
        apply (hround.mono mul_kstar_le_kstar).of_eq
        intro rest hrest
        apply h.repeatWhile_eq_bind hstarts
        rwa [Cursor.next?_before hrest]
      · have hnone := (stops_pure ([] : List α)).stopsAt cursor
        apply (hnone.mono one_le_kstar).of_eq
        intro rest hrest
        apply repeatWhile_stop
        rw [Cursor.next?_before hrest]
        exact Bool.eq_false_iff.2 hmore

theorem Stops.separated [Inhabited α] {item : Parser α} {form : Form} (h : Stops item form)
    (mark : Symbol) : Stops (Parser.separated mark item) (separatedBy mark form) := by
  have hmarked : Stops (symbol mark *> item) (sym mark * form) :=
    (stops_symbol mark).bind fun _ => h
  have hstarts : Starts (sym mark * form) [.symbol mark] := (starts_word _).mul
  exact h.bind fun first => (hmarked.repeatWhile hstarts _).map fun others => (first, others)

theorem Stops.listed [Inhabited α] {item : Parser α} {form : Form} (h : Stops item form)
    (close : Symbol) :
    Stops (Parser.listed close item) (opt (separatedBy .comma form) * sym close) := by
  rw [opt, add_mul, one_mul]
  apply Stops.next?_ite ((stops_symbol close).map fun _ => [])
  exact (h.separated .comma).closed close fun items => items.1 :: items.2

end Parser

end CrossModel
