import CrossModel.Proofs.Document.Grammar

/-!
# Readers and the forms they read

`Reads reader form more` says that a reader accepts exactly the phrases of a form. It is stated for
a reader in the middle of a text: what it consumes is a phrase of the form, and it consumes a phrase
wherever one stands, unless the lexeme behind it is one with which the reader would go on. These
lexemes are `more`. The parser looks one lexeme ahead, so a form can follow another if its first
words are not among the `more` of what stands before it.

Each combinator of the parser has one lemma here, and the readers for documents are put together
from these.
-/

namespace CrossModel

open Grammar
open scoped Computability

def Lexeme.word (lexeme : Lexeme) : Word := (lexeme.kind, lexeme.text)

namespace Grammar

/-! ## First words -/

/-- Every phrase of the form has a first word, of one of these kinds. -/
def Starts (form : Form) (kinds : List TokenKind) : Prop :=
  ∀ phrase ∈ form, ∃ first rest, phrase = first :: rest ∧ first.1 ∈ kinds

/-- A phrase of the form is empty or starts with a word of one of these kinds. -/
def MayStart (form : Form) (kinds : List TokenKind) : Prop :=
  ∀ phrase ∈ form, phrase = [] ∨ ∃ first rest, phrase = first :: rest ∧ first.1 ∈ kinds

theorem Starts.mayStart {form : Form} {kinds : List TokenKind} (h : Starts form kinds) :
    MayStart form kinds :=
  fun phrase hphrase => .inr (h phrase hphrase)

theorem Starts.mono {form : Form} {kinds others : List TokenKind} (h : Starts form kinds)
    (hsub : kinds ⊆ others) : Starts form others := by
  intro phrase hphrase
  obtain ⟨first, rest, heq, hmem⟩ := h phrase hphrase
  exact ⟨first, rest, heq, hsub hmem⟩

theorem starts_word (kind : TokenKind) : Starts (word kind) [kind] := by
  rintro phrase ⟨text, rfl⟩
  exact ⟨(kind, text), [], rfl, List.mem_singleton.2 rfl⟩

theorem Starts.mul {first second : Form} {kinds : List TokenKind} (h : Starts first kinds) :
    Starts (first * second) kinds := by
  intro phrase hphrase
  obtain ⟨a, ha, b, -, rfl⟩ := Language.mem_mul.1 hphrase
  obtain ⟨head, rest, rfl, hmem⟩ := h a ha
  exact ⟨head, rest ++ b, rfl, hmem⟩

theorem Starts.add {first second : Form} {kinds : List TokenKind} (hfirst : Starts first kinds)
    (hsecond : Starts second kinds) : Starts (first + second) kinds := by
  intro phrase hphrase
  rcases (Language.mem_add _ _ _).1 hphrase with h | h
  · exact hfirst phrase h
  · exact hsecond phrase h

theorem Starts.opt_mul {first second : Form} {kinds : List TokenKind}
    (hfirst : Starts first kinds) (hsecond : Starts second kinds) :
    Starts (opt first * second) kinds := by
  intro phrase hphrase
  obtain ⟨a, ha, b, hb, rfl⟩ := Language.mem_mul.1 hphrase
  rcases (Language.mem_add _ _ _).1 ha with h | h
  · rw [(Language.mem_one a).1 h, List.nil_append]
    exact hsecond b hb
  · obtain ⟨head, rest, rfl, hmem⟩ := hfirst a h
    exact ⟨head, rest ++ b, rfl, hmem⟩

theorem MayStart.opt {form : Form} {kinds : List TokenKind} (h : Starts form kinds) :
    MayStart (opt form) kinds := by
  intro phrase hphrase
  rcases (Language.mem_add _ _ _).1 hphrase with hempty | hphrase
  · exact .inl ((Language.mem_one phrase).1 hempty)
  · exact h.mayStart phrase hphrase

theorem MayStart.add {first second : Form} {kinds others : List TokenKind}
    (hfirst : MayStart first kinds) (hsecond : MayStart second others) :
    MayStart (first + second) (kinds ++ others) := by
  intro phrase hphrase
  rcases (Language.mem_add _ _ _).1 hphrase with h | h
  · rcases hfirst phrase h with rfl | ⟨head, rest, rfl, hmem⟩
    · exact .inl rfl
    · exact .inr ⟨head, rest, rfl, List.mem_append_left _ hmem⟩
  · rcases hsecond phrase h with rfl | ⟨head, rest, rfl, hmem⟩
    · exact .inl rfl
    · exact .inr ⟨head, rest, rfl, List.mem_append_right _ hmem⟩

theorem MayStart.mul {first second : Form} {kinds others : List TokenKind}
    (hfirst : MayStart first kinds) (hsecond : MayStart second others) :
    MayStart (first * second) (kinds ++ others) := by
  intro phrase hphrase
  obtain ⟨a, ha, b, hb, rfl⟩ := Language.mem_mul.1 hphrase
  rcases hfirst a ha with rfl | ⟨head, rest, rfl, hmem⟩
  · rcases hsecond b hb with rfl | ⟨head, rest, rfl, hmem⟩
    · exact .inl rfl
    · exact .inr ⟨head, rest, rfl, List.mem_append_right _ hmem⟩
  · exact .inr ⟨head, rest ++ b, rfl, List.mem_append_left _ hmem⟩

theorem MayStart.head_mem {form : Form} {kinds : List TokenKind} (h : MayStart form kinds)
    {first : Word} {rest : List Word} (hphrase : first :: rest ∈ form) : first.1 ∈ kinds := by
  rcases h _ hphrase with hempty | ⟨head, tail, heq, hmem⟩
  · cases hempty
  · cases heq
    exact hmem

theorem Starts.kstar {form : Form} {kinds : List TokenKind} (h : Starts form kinds) :
    MayStart form∗ kinds := by
  intro phrase hphrase
  rw [← Language.one_add_self_mul_kstar_eq_kstar] at hphrase
  exact MayStart.opt h.mul phrase hphrase

end Grammar

/-- Whether the next lexeme is of one of these kinds. -/
def oneOf (kinds : List TokenKind) (next : Option TokenKind) : Bool :=
  next.any (kinds.contains ·)

theorem oneOf_mono {kinds others : List TokenKind} (h : kinds ⊆ others) {next : Option TokenKind}
    (hnext : oneOf others next = false) : oneOf kinds next = false := by
  cases next with
  | none => rfl
  | some kind =>
    simp only [oneOf, Option.any_some, List.contains_eq_mem, decide_eq_false_iff_not] at hnext ⊢
    exact fun hmem => hnext (h hmem)

theorem oneOf_some {kinds : List TokenKind} {kind : TokenKind} :
    oneOf kinds (some kind) = false ↔ kind ∉ kinds := by
  simp [oneOf]

theorem oneOf_eq_true {kinds : List TokenKind} {next : Option TokenKind} :
    oneOf kinds next = true ↔ ∃ kind, next = some kind ∧ kind ∈ kinds := by
  cases next <;> simp [oneOf]

theorem oneOf_nil (next : Option TokenKind) : oneOf [] next = false := by
  cases next <;> rfl

theorem ne_of_oneOf {kind : TokenKind} {kinds : List TokenKind} {next : Option TokenKind}
    (hmem : kind ∈ kinds) (h : oneOf kinds next = false) : next ≠ some kind := by
  rintro rfl
  exact oneOf_some.1 h hmem

/-- What is ahead of a reader before a phrase: its first word, or what is behind the phrase. -/
def lookahead (phrase : List Word) (next : Option TokenKind) : Option TokenKind :=
  (phrase.head?.map Prod.fst).or next

@[simp] theorem lookahead_nil (next : Option TokenKind) : lookahead [] next = next := rfl

@[simp] theorem lookahead_cons (first : Word) (rest : List Word) (next : Option TokenKind) :
    lookahead (first :: rest) next = some first.1 := rfl

theorem Grammar.Starts.lookahead_eq {form : Form} {kind : TokenKind} (h : Starts form [kind])
    {phrase : List Word} (hphrase : phrase ∈ form) (next : Option TokenKind) :
    lookahead phrase next = some kind := by
  obtain ⟨first, rest, rfl, hmem⟩ := h phrase hphrase
  rw [lookahead_cons, List.mem_singleton.1 hmem]

theorem Grammar.Starts.lookahead_ne {form : Form} {kinds : List TokenKind} {kind : TokenKind}
    (h : Starts form kinds) (hkind : kind ∉ kinds) {phrase : List Word} (hphrase : phrase ∈ form)
    (next : Option TokenKind) : lookahead phrase next ≠ some kind := by
  intro heq
  obtain ⟨first, rest, rfl, hmem⟩ := h phrase hphrase
  exact hkind (Option.some.inj heq ▸ hmem)

/-- The kind of the lexeme behind a phrase: the first word of what follows. -/
def following (rest : List Lexeme) : Option TokenKind :=
  rest.head?.map (·.kind)

theorem following_append (used rest : List Lexeme) :
    following (used ++ rest) = lookahead (used.map Lexeme.word) (following rest) := by
  cases used <;> rfl

namespace Parser

variable {α β : Type}

/-- The reader accepts the phrases of the form. It goes on behind a phrase if the next lexeme is
among `more`. -/
structure Reads (reader : Parser α) (form : Form) (more : Option TokenKind → Bool) : Prop where
  sound : ∀ {cursor value ahead}, reader cursor = .ok (value, ahead) →
    ∃ used, cursor.rest = used ++ ahead.rest ∧ used.map Lexeme.word ∈ form
  complete : ∀ {used rest} passed finish, used.map Lexeme.word ∈ form →
    more (following rest) = false →
    ∃ value stop, reader ⟨used ++ rest, passed, finish⟩ = .ok (value, ⟨rest, stop, finish⟩)

/-! ## Sequences -/

theorem bind_eq_ok_iff {reader : Parser α} {further : α → Parser β} {cursor ahead : Cursor}
    {value : β} :
    (reader >>= further) cursor = .ok (value, ahead) ↔
      ∃ first between, reader cursor = .ok (first, between) ∧
        further first between = .ok (value, ahead) := by
  change (reader cursor >>= fun result => further result.1 result.2) = _ ↔ _
  cases hreader : reader cursor with
  | error error => simp [bind, Except.bind]
  | ok result =>
    obtain ⟨first, between⟩ := result
    simp [bind, Except.bind]

theorem reads_pure (value : α) : Reads (pure value) 1 (oneOf []) where
  sound h := by
    cases h
    exact ⟨[], rfl, rfl⟩
  complete _ _ hphrase _ := by
    rw [Language.mem_one, List.map_eq_nil_iff] at hphrase
    subst hphrase
    exact ⟨value, _, rfl⟩

theorem Reads.mono {reader : Parser α} {form : Form} {more others : Option TokenKind → Bool}
    (h : Reads reader form more)
    (hmore : ∀ next, others next = false → more next = false) : Reads reader form others where
  sound := h.sound
  complete passed finish hphrase hnext := h.complete passed finish hphrase (hmore _ hnext)

/-- One reader behind another. The second one must not start with what the first one would still
consume; if it can be empty, that goes for what follows as well. -/
theorem Reads.bind_of {reader : Parser α} {further : α → Parser β} {first second : Form}
    {more others : Option TokenKind → Bool} (hreader : Reads reader first more)
    (hfurther : ∀ value, Reads (further value) second others)
    (hnext : ∀ phrase ∈ second, ∀ next, others next = false →
      more (lookahead phrase next) = false) :
    Reads (reader >>= further) (first * second) others where
  sound h := by
    obtain ⟨value, between, hvalue, hrest⟩ := bind_eq_ok_iff.1 h
    obtain ⟨used, heq, hused⟩ := hreader.sound hvalue
    obtain ⟨more, hmore, hphrase⟩ := (hfurther value).sound hrest
    refine ⟨used ++ more, by rw [heq, hmore, List.append_assoc], ?_⟩
    rw [List.map_append]
    exact Language.append_mem_mul hused hphrase
  complete {used rest} passed finish hphrase hrest := by
    obtain ⟨a, ha, b, hb, hsplit⟩ := Language.mem_mul.1 hphrase
    obtain ⟨front, back, rfl, rfl, rfl⟩ := List.map_eq_append_iff.1 hsplit.symm
    have hbehind : more (following (back ++ rest)) = false := by
      rw [following_append]
      exact hnext _ hb _ hrest
    obtain ⟨value, between, hvalue⟩ := hreader.complete passed finish ha hbehind
    obtain ⟨result, stop, hresult⟩ := (hfurther value).complete between finish hb hrest
    refine ⟨result, stop, bind_eq_ok_iff.2 ⟨value, _, ?_, hresult⟩⟩
    rw [List.append_assoc]
    exact hvalue

/-- A reader behind one that knows where it ends. -/
theorem Reads.seq {reader : Parser α} {further : α → Parser β} {first second : Form}
    {more : Option TokenKind → Bool} (hreader : Reads reader first (oneOf []))
    (hfurther : ∀ value, Reads (further value) second more) :
    Reads (reader >>= further) (first * second) more :=
  hreader.bind_of hfurther fun _ _ _ _ => oneOf_nil _

theorem Reads.bind_of_starts {reader : Parser α} {further : α → Parser β} {first second : Form}
    {more others : Option TokenKind → Bool} {starts : List TokenKind}
    (hreader : Reads reader first more) (hfurther : ∀ value, Reads (further value) second others)
    (hstarts : Starts second starts) (hapart : ∀ kind ∈ starts, more (some kind) = false) :
    Reads (reader >>= further) (first * second) others := by
  apply hreader.bind_of hfurther
  intro phrase hphrase next _
  obtain ⟨word, rest, rfl, hmem⟩ := hstarts phrase hphrase
  exact hapart word.1 hmem

theorem Reads.bind_of_mayStart {reader : Parser α} {further : α → Parser β} {first second : Form}
    {more others : Option TokenKind → Bool} {starts : List TokenKind}
    (hreader : Reads reader first more) (hfurther : ∀ value, Reads (further value) second others)
    (hstarts : MayStart second starts) (hapart : ∀ kind ∈ starts, more (some kind) = false)
    (hmore : ∀ next, others next = false → more next = false) :
    Reads (reader >>= further) (first * second) others := by
  apply hreader.bind_of hfurther
  intro phrase hphrase next hnext
  rcases hstarts phrase hphrase with rfl | ⟨word, rest, rfl, hmem⟩
  · exact hmore next hnext
  · exact hapart word.1 hmem

theorem Reads.widen {reader : Parser α} {form : Form} {kinds others : List TokenKind}
    (h : Reads reader form (oneOf kinds)) (hsub : kinds ⊆ others) :
    Reads reader form (oneOf others) :=
  h.mono fun _ => oneOf_mono hsub

theorem Reads.bind {reader : Parser α} {further : α → Parser β} {first second : Form}
    {kinds others starts : List TokenKind} (hreader : Reads reader first (oneOf kinds))
    (hfurther : ∀ value, Reads (further value) second (oneOf others))
    (hstarts : MayStart second starts) (hapart : ∀ kind ∈ starts, kind ∉ kinds) :
    Reads (reader >>= further) (first * second) (oneOf (kinds ++ others)) := by
  apply hreader.bind_of_mayStart
  · intro value
    exact (hfurther value).widen (List.subset_append_right kinds others)
  · exact hstarts
  · intro kind hkind
    exact oneOf_some.2 (hapart kind hkind)
  · intro next
    exact oneOf_mono (List.subset_append_left kinds others)

theorem Reads.bind_pure {reader : Parser α} {further : α → Parser β} {form : Form}
    {more : Option TokenKind → Bool} (h : Reads reader form more)
    (hpure : ∀ value, ∃ result, further value = pure result) :
    Reads (reader >>= further) form more where
  sound hread := by
    obtain ⟨value, between, hvalue, hrest⟩ := bind_eq_ok_iff.1 hread
    obtain ⟨result, hresult⟩ := hpure value
    rw [hresult] at hrest
    cases hrest
    exact h.sound hvalue
  complete passed finish hphrase hnext := by
    obtain ⟨value, stop, hvalue⟩ := h.complete passed finish hphrase hnext
    obtain ⟨result, hresult⟩ := hpure value
    refine ⟨result, stop, bind_eq_ok_iff.2 ⟨value, _, hvalue, ?_⟩⟩
    rw [hresult]
    rfl

theorem Reads.map {reader : Parser α} {form : Form} {more : Option TokenKind → Bool}
    (h : Reads reader form more) (change : α → β) :
    Reads (reader >>= fun value => pure (change value)) form more :=
  h.bind_pure fun value => ⟨change value, rfl⟩

/-! ## Single lexemes -/

theorem accept?_self {kind : TokenKind} {lexeme : Lexeme} (h : lexeme.kind = kind)
    (rest : List Lexeme) (passed finish : Position) :
    accept? kind ⟨lexeme :: rest, passed, finish⟩ =
      .ok (some lexeme, ⟨rest, lexeme.span.stop, finish⟩) := by
  simp [accept?, h]

theorem accept?_other {kind : TokenKind} {cursor : Cursor} (h : cursor.next? ≠ some kind) :
    accept? kind cursor = .ok (none, cursor) := by
  unfold accept?
  cases hrest : cursor.rest with
  | nil => rfl
  | cons lexeme rest =>
    have hne : lexeme.kind ≠ kind := by
      intro heq
      apply h
      simp [Cursor.next?, hrest, heq]
    simp [hne]

theorem accept?_cases {kind : TokenKind} {cursor ahead : Cursor} {found : Option Lexeme}
    (h : accept? kind cursor = .ok (found, ahead)) :
    (∃ lexeme, lexeme.kind = kind ∧ cursor.rest = lexeme :: ahead.rest ∧ found = some lexeme) ∨
      (ahead = cursor ∧ found = none) := by
  unfold accept? at h
  split at h
  · next lexeme rest hrest =>
    split at h
    · next hkind =>
      cases h
      exact .inl ⟨lexeme, hkind, hrest, rfl⟩
    · cases h
      exact .inr ⟨rfl, rfl⟩
  · cases h
    exact .inr ⟨rfl, rfl⟩

theorem map_word_mem_word {used : List Lexeme} {kind : TokenKind} :
    used.map Lexeme.word ∈ word kind ↔ ∃ lexeme, used = [lexeme] ∧ lexeme.kind = kind := by
  constructor
  · rintro ⟨text, htext⟩
    obtain ⟨lexeme, rfl, hword⟩ := List.map_eq_singleton_iff.1 htext
    exact ⟨lexeme, rfl, congrArg Prod.fst hword⟩
  · rintro ⟨lexeme, rfl, rfl⟩
    exact ⟨lexeme.text, rfl⟩

/-- What a reader does depends on whether the next lexeme is of a kind. If it is, the lexeme is
consumed; if not, what is read instead must not start with it. -/
theorem Reads.accept?_bind {kind : TokenKind} {further : Option Lexeme → Parser α}
    {first second : Form} {more : Option TokenKind → Bool}
    (hpresent : ∀ lexeme, Reads (further (some lexeme)) first more)
    (habsent : Reads (further none) second more)
    (hapart : ∀ phrase ∈ second, ∀ next, more next = false →
      lookahead phrase next ≠ some kind) :
    Reads (accept? kind >>= further) (word kind * first + second) more where
  sound h := by
    obtain ⟨found, between, hfound, hrest⟩ := bind_eq_ok_iff.1 h
    rcases accept?_cases hfound with ⟨lexeme, hkind, heq, rfl⟩ | ⟨rfl, rfl⟩
    · obtain ⟨used, hused, hphrase⟩ := (hpresent lexeme).sound hrest
      refine ⟨[lexeme] ++ used, by rw [heq, hused]; rfl, Or.inl ?_⟩
      rw [List.map_append]
      exact Language.append_mem_mul (map_word_mem_word.2 ⟨lexeme, rfl, hkind⟩) hphrase
    · obtain ⟨used, hused, hphrase⟩ := habsent.sound hrest
      exact ⟨used, hused, Or.inr hphrase⟩
  complete {used rest} passed finish hphrase hnext := by
    rcases (Language.mem_add _ _ _).1 hphrase with hphrase | hphrase
    · obtain ⟨a, ha, b, hb, hsplit⟩ := Language.mem_mul.1 hphrase
      obtain ⟨front, back, rfl, rfl, rfl⟩ := List.map_eq_append_iff.1 hsplit.symm
      obtain ⟨lexeme, rfl, hkind⟩ := map_word_mem_word.1 ha
      obtain ⟨value, stop, hvalue⟩ :=
        (hpresent lexeme).complete lexeme.span.stop finish hb hnext
      have hfound := accept?_self hkind (back ++ rest) passed finish
      exact ⟨value, stop, bind_eq_ok_iff.2 ⟨some lexeme, _, hfound, hvalue⟩⟩
    · have hother : following (used ++ rest) ≠ some kind := by
        rw [following_append]
        exact hapart _ hphrase _ hnext
      obtain ⟨value, stop, hvalue⟩ := habsent.complete passed finish hphrase hnext
      exact ⟨value, stop, bind_eq_ok_iff.2 ⟨none, _, accept?_other hother, hvalue⟩⟩

theorem reads_reject (expected : Expected) (more : Option TokenKind → Bool) :
    Reads (reject expected : Parser α) 0 more where
  sound h := nomatch h
  complete _ _ hphrase := absurd hphrase (Language.notMem_zero _)

theorem reads_expect (kind : TokenKind) : Reads (expect kind) (word kind) (oneOf []) := by
  have h : Reads (expect kind) (word kind * 1 + 0) (oneOf []) :=
    Reads.accept?_bind (fun lexeme => reads_pure lexeme) (reads_reject (.token kind) _)
      fun _ hphrase => absurd hphrase (Language.notMem_zero _)
  rwa [mul_one, add_zero] at h

theorem expect_eq_ok {kind : TokenKind} {cursor ahead : Cursor} {lexeme : Lexeme}
    (h : expect kind cursor = .ok (lexeme, ahead)) :
    lexeme.kind = kind ∧ cursor.rest = lexeme :: ahead.rest := by
  obtain ⟨found, between, hfound, hrest⟩ := bind_eq_ok_iff.1 h
  rcases accept?_cases hfound with ⟨head, hkind, heq, rfl⟩ | ⟨rfl, rfl⟩
  · cases hrest
    exact ⟨hkind, heq⟩
  · cases hrest

theorem expect_self {kind : TokenKind} {lexeme : Lexeme} (h : lexeme.kind = kind)
    (rest : List Lexeme) (passed finish : Position) :
    expect kind ⟨lexeme :: rest, passed, finish⟩ =
      .ok (lexeme, ⟨rest, lexeme.span.stop, finish⟩) :=
  bind_eq_ok_iff.2 ⟨some lexeme, _, accept?_self h rest passed finish, rfl⟩

theorem reads_discard {reader : Parser α} {form : Form} {more : Option TokenKind → Bool}
    (h : Reads reader form more) : Reads (discard reader) form more :=
  h.map fun _ => PUnit.unit

theorem reads_keyword (keyword : Keyword) :
    Reads (Parser.keyword keyword) (kw keyword) (oneOf []) :=
  reads_discard (reads_expect (.keyword keyword))

theorem reads_symbol (mark : Symbol) : Reads (Parser.symbol mark) (sym mark) (oneOf []) :=
  reads_discard (reads_expect (.symbol mark))

theorem Reads.closed {body : Parser α} {form : Form} {more : Option TokenKind → Bool}
    (h : Reads body form more) (close : Symbol) (change : α → β)
    (hclose : more (some (.symbol close)) = false) :
    Reads (body >>= fun value => symbol close >>= fun _ => pure (change value))
      (form * sym close) (oneOf []) := by
  apply h.bind_of_starts
  · intro value
    exact (reads_symbol close).map fun _ => change value
  · exact starts_word _
  · intro kind hkind
    rw [List.mem_singleton.1 hkind]
    exact hclose

/-! ## Optional parts -/

theorem Reads.opt_bind {kind : TokenKind} {kinds : List TokenKind}
    {further : Option Lexeme → Parser α} {form : Form}
    (hpresent : ∀ lexeme, Reads (further (some lexeme)) form (oneOf kinds))
    (habsent : Reads (further none) 1 (oneOf [])) :
    Reads (accept? kind >>= further) (opt (word kind * form)) (oneOf (kind :: kinds)) := by
  rw [opt, add_comm]
  apply Reads.accept?_bind
  · intro lexeme
    exact (hpresent lexeme).mono fun _ => oneOf_mono (List.subset_cons_self kind kinds)
  · exact habsent.mono fun _ => oneOf_mono (List.nil_subset _)
  · intro phrase hphrase next hnext
    rw [(Language.mem_one phrase).1 hphrase]
    exact ne_of_oneOf List.mem_cons_self hnext

theorem Reads.after? {item : Parser α} {form : Form} {kinds : List TokenKind}
    (h : Reads item form (oneOf kinds)) (kind : TokenKind) :
    Reads (Parser.after? kind item) (opt (word kind * form)) (oneOf (kind :: kinds)) :=
  Reads.opt_bind (fun _ => h.map some) (reads_pure none)

theorem reads_accept? (kind : TokenKind) :
    Reads (accept? kind) (opt (word kind)) (oneOf [kind]) := by
  have h : Reads (accept? kind >>= pure) (opt (word kind * 1)) (oneOf [kind]) :=
    Reads.opt_bind (fun lexeme => reads_pure (some lexeme)) (reads_pure none)
  rwa [bind_pure, mul_one] at h

/-! ## Looking ahead -/

/-- A reader that chooses by the next lexeme. The phrases are divided by their first words, and the
empty phrase goes with the lexeme behind it. -/
theorem Reads.next?_bind {further : Option TokenKind → Parser α} {form : Form}
    {more : Option TokenKind → Bool} (parts : Option TokenKind → Form)
    (hparts : ∀ next, Reads (further next) (parts next) more)
    (hsub : ∀ next, ∀ phrase ∈ parts next, phrase ∈ form)
    (hcover : ∀ phrase ∈ form, ∀ next, more next = false →
      phrase ∈ parts (lookahead phrase next)) :
    Reads (next? >>= further) form more where
  sound {cursor value ahead} h := by
    obtain ⟨used, hused, hphrase⟩ := (hparts cursor.next?).sound h
    exact ⟨used, hused, hsub _ _ hphrase⟩
  complete {used rest} passed finish hphrase hnext := by
    have hpart : used.map Lexeme.word ∈ parts (following (used ++ rest)) := by
      rw [following_append]
      exact hcover _ hphrase _ hnext
    exact (hparts _).complete passed finish hpart hnext

theorem Reads.next?_ite {kind : TokenKind} {reader other : Parser α} {first second : Form}
    {more : Option TokenKind → Bool} (hreader : Reads reader first more)
    (hother : Reads other second more) (hstarts : Starts first [kind])
    (hapart : ∀ phrase ∈ second, ∀ next, more next = false → lookahead phrase next ≠ some kind) :
    Reads (next? >>= fun next => if next = some kind then reader else other)
      (first + second) more := by
  apply Reads.next?_bind fun next => if next = some kind then first else second
  · intro next
    split
    · exact hreader
    · exact hother
  · intro next phrase hphrase
    split at hphrase
    · exact Or.inl hphrase
    · exact Or.inr hphrase
  · intro phrase hphrase next hnext
    rcases (Language.mem_add _ _ _).1 hphrase with hphrase | hphrase
    · rw [if_pos (hstarts.lookahead_eq hphrase next)]
      exact hphrase
    · rw [if_neg (hapart phrase hphrase next hnext)]
      exact hphrase

/-! ## Loops -/

theorem repeatWhile_stop {cond : Option TokenKind → Bool} {item : Parser α} {cursor : Cursor}
    (h : cond cursor.next? = false) : repeatWhile cond item cursor = .ok ([], cursor) := by
  rw [repeatWhile]
  simp [h]

theorem repeatWhile_step {cond : Option TokenKind → Bool} {item : Parser α}
    {cursor between ahead : Cursor} {value : α} {values : List α}
    (h : cond cursor.next? = true) (hitem : item cursor = .ok (value, between))
    (hless : between.rest.length < cursor.rest.length)
    (hrest : repeatWhile cond item between = .ok (values, ahead)) :
    repeatWhile cond item cursor = .ok (value :: values, ahead) := by
  rw [repeatWhile]
  simp [h, hitem, hless, hrest]

/-- The loop over a form goes on with the first words of the form, and at its end with whatever the
last item could go on with. -/
theorem Reads.repeatWhile {item : Parser α} {form : Form} {more cond : Option TokenKind → Bool}
    {starts : List TokenKind} (h : Reads item form more) (hstarts : Starts form starts)
    (hcond : ∀ kind ∈ starts, cond (some kind) = true)
    (hapart : ∀ kind ∈ starts, more (some kind) = false) :
    Reads (Parser.repeatWhile cond item) form∗ fun next => cond next || more next where
  sound {cursor values ahead} hread := by
    fun_induction Parser.repeatWhile cond item cursor generalizing values ahead with
    | case1 => cases hread
    | case2 => cases hread
    | case3 cursor _ value between hitem _ values done hrest ih =>
      cases hread
      obtain ⟨used, hused, hphrase⟩ := h.sound hitem
      obtain ⟨others, hothers, hphrases⟩ := ih hrest
      refine ⟨used ++ others, by rw [hused, hothers, List.append_assoc], ?_⟩
      rw [List.map_append, ← Language.one_add_self_mul_kstar_eq_kstar]
      exact Or.inr (Language.append_mem_mul hphrase hphrases)
    | case4 cursor _ value between hitem _ =>
      cases hread
      obtain ⟨used, hused, hphrase⟩ := h.sound hitem
      exact ⟨used, hused, (le_kstar : form ≤ form∗) hphrase⟩
    | case5 =>
      cases hread
      exact ⟨[], rfl, Language.nil_mem_kstar form⟩
  complete {used rest} passed finish hphrase hnext := by
    -- One round for each phrase: the lexeme behind it is the first one of the next phrase, or the
    -- one behind the whole repetition.
    obtain ⟨phrases, hflat, hphrases⟩ := Language.mem_kstar.1 hphrase
    rw [Bool.or_eq_false_iff] at hnext
    induction phrases generalizing used passed with
    | nil =>
      rw [List.flatten_nil, List.map_eq_nil_iff] at hflat
      subst hflat
      exact ⟨[], passed, repeatWhile_stop hnext.1⟩
    | cons first others ih =>
      obtain ⟨front, back, rfl, hfront, hback⟩ := List.map_eq_append_iff.1 hflat
      have hfirst : front.map Lexeme.word ∈ form := hfront ▸ hphrases first List.mem_cons_self
      have hothers : ∀ phrase ∈ others, phrase ∈ form :=
        fun phrase hmem => hphrases phrase (List.mem_cons_of_mem first hmem)
      have hphrase : back.map Lexeme.word ∈ form∗ := hback ▸ Language.join_mem_kstar hothers
      have hbehind : more (following (back ++ rest)) = false := by
        cases back with
        | nil => exact hnext.2
        | cons lexeme back =>
          exact hapart _ (hstarts.kstar.head_mem hphrase)
      obtain ⟨value, between, hvalue⟩ := h.complete passed finish hfirst hbehind
      obtain ⟨values, stop, hvalues⟩ := ih between hphrase hback hothers
      obtain ⟨lexeme, tail, rfl⟩ : ∃ lexeme tail, front = lexeme :: tail := by
        obtain ⟨word, words, hword, -⟩ := hstarts _ hfirst
        obtain ⟨lexeme, tail, rfl, -, -⟩ := List.map_eq_cons_iff.1 hword
        exact ⟨lexeme, tail, rfl⟩
      refine ⟨value :: values, stop, ?_⟩
      rw [List.append_assoc]
      refine repeatWhile_step (hcond _ (hstarts.mayStart.head_mem hfirst)) hvalue ?_ hvalues
      simp only [List.length_append, List.length_cons]
      omega

theorem repeat_or_of_oneOf_cons {kind : TokenKind} {kinds : List TokenKind}
    {next : Option TokenKind} (h : oneOf (kind :: kinds) next = false) :
    (decide (next = some kind) || oneOf kinds next) = false := by
  rw [Bool.or_eq_false_iff, decide_eq_false_iff_not]
  exact ⟨ne_of_oneOf List.mem_cons_self h, oneOf_mono (List.subset_cons_self kind kinds) h⟩

theorem Reads.repeatWhile_eq {item : Parser α} {form : Form} {kind : TokenKind}
    {kinds : List TokenKind} (h : Reads item form (oneOf kinds)) (hstarts : Starts form [kind])
    (hapart : kind ∉ kinds) :
    Reads (Parser.repeatWhile (· = some kind) item) form∗ (oneOf (kind :: kinds)) := by
  refine Reads.mono (h.repeatWhile hstarts ?_ ?_) fun _ => repeat_or_of_oneOf_cons
  · intro other hother
    simpa using hother
  · intro other hother
    rw [List.mem_singleton] at hother
    simpa [oneOf, hother] using hapart

theorem Reads.separated {item : Parser α} {form : Form} {kinds : List TokenKind} (mark : Symbol)
    (h : Reads item form (oneOf kinds)) (hmark : .symbol mark ∉ kinds) :
    Reads (Parser.separated mark item) (separatedBy mark form)
      (oneOf (.symbol mark :: kinds)) := by
  have hmarked : Reads (symbol mark *> item) (sym mark * form) (oneOf kinds) :=
    (reads_symbol mark).seq fun _ => h
  have hstarts : Starts (sym mark * form) [.symbol mark] := (starts_word (.symbol mark)).mul
  have hloop := hmarked.repeatWhile_eq hstarts hmark
  apply h.bind_of_mayStart (fun first => hloop.map fun others => (first, others)) hstarts.kstar
  · intro kind hkind
    rw [List.mem_singleton.1 hkind]
    exact oneOf_some.2 hmark
  · intro next
    exact oneOf_mono (List.subset_cons_self _ kinds)

theorem Reads.listed {item : Parser α} {form : Form} {kinds starts : List TokenKind}
    (close : Symbol) (h : Reads item form (oneOf kinds)) (hcomma : .symbol .comma ∉ kinds)
    (hclose : .symbol close ∉ .symbol .comma :: kinds) (hstarts : Starts form starts)
    (hfirst : .symbol close ∉ starts) :
    Reads (Parser.listed close item) (opt (separatedBy .comma form) * sym close) (oneOf []) := by
  rw [opt, add_mul, one_mul]
  apply Reads.next?_ite ((reads_symbol close).map fun _ => []) _ (starts_word _)
  · intro phrase hphrase next _
    exact hstarts.mul.mul.lookahead_ne hfirst hphrase next
  · have hitems := h.separated .comma hcomma
    exact hitems.closed close (fun items => items.1 :: items.2) (oneOf_some.2 hclose)

theorem Reads.spanned {item : Parser α} {form : Form} {more : Option TokenKind → Bool}
    (h : Reads item form more) : Reads (Parser.spanned item) form more where
  sound hread := by
    obtain ⟨_, _, hget, hread⟩ := bind_eq_ok_iff.1 hread
    cases hget
    obtain ⟨value, between, hvalue, hread⟩ := bind_eq_ok_iff.1 hread
    cases hread
    exact h.sound hvalue
  complete passed finish hphrase hnext := by
    obtain ⟨value, stop, hvalue⟩ := h.complete passed finish hphrase hnext
    refine ⟨_, stop, bind_eq_ok_iff.2 ⟨_, _, rfl, bind_eq_ok_iff.2 ⟨value, _, hvalue, rfl⟩⟩⟩

end Parser

end CrossModel
