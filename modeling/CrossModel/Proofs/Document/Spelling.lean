import CrossModel.Proofs.Document.Acceptance

/-!
# Values and the lexemes they are read from

`Spells reader relates` says what a reader gives when it succeeds: its value is related to the
lexemes that it consumed, and the cursor stands behind the last one of them. A relation can speak of
the whole of these lexemes, of a stretch among them (`Stands`) or of one stretch for each item of a
list (`Row`). Each combinator of the parser has one lemma here.
-/

namespace CrossModel

open Grammar
open scoped Computability

/-! ## Stretches of a list -/

section Stretches

variable {τ α : Type}

/-- A stretch of the list has the property. -/
def Stands (property : List τ → Prop) (used : List τ) : Prop :=
  ∃ part, part <:+: used ∧ property part

namespace Stands

variable {property : List τ → Prop} {used other : List τ}

theorem self (h : property used) : Stands property used :=
  ⟨used, List.infix_refl used, h⟩

theorem within (h : Stands property used) (hused : used <:+: other) : Stands property other := by
  obtain ⟨part, hpart, hproperty⟩ := h
  exact ⟨part, hpart.trans hused, hproperty⟩

theorem front (h : Stands property used) : Stands property (used ++ other) :=
  h.within (List.prefix_append used other).isInfix

theorem back (h : Stands property used) : Stands property (other ++ used) :=
  h.within (List.suffix_append other used).isInfix

theorem behind (h : Stands property used) (first : τ) : Stands property (first :: used) :=
  h.within (List.suffix_cons first used).isInfix

theorem imp {weaker : List τ → Prop} (h : Stands property used)
    (himp : ∀ part, property part → weaker part) : Stands weaker used := by
  obtain ⟨part, hpart, hproperty⟩ := h
  exact ⟨part, hpart, himp part hproperty⟩

theorem flat (h : Stands (Stands property) used) : Stands property used := by
  obtain ⟨part, hpart, hproperty⟩ := h
  exact hproperty.within hpart

end Stands

/-- The list is made of one stretch for each item, in the order of the items. -/
inductive Row (relates : α → List τ → Prop) : List α → List τ → Prop
  | nil : Row relates [] []
  | cons {item : α} {items : List α} {own rest : List τ} (hitem : relates item own)
      (hitems : Row relates items rest) : Row relates (item :: items) (own ++ rest)

theorem Row.stands {relates : α → List τ → Prop} {items : List α} {used : List τ}
    (h : Row relates items used) : ∀ item ∈ items, Stands (relates item) used := by
  induction h with
  | nil => nofun
  | cons hitem hitems ih =>
    rw [List.forall_mem_cons]
    exact ⟨(Stands.self hitem).front, fun item hmem => (ih item hmem).back⟩

theorem Row.imp {relates weaker : α → List τ → Prop} {items : List α} {used : List τ}
    (h : Row relates items used) (himp : ∀ item own, relates item own → weaker item own) :
    Row weaker items used := by
  induction h with
  | nil => exact .nil
  | cons hitem hitems ih => exact .cons (himp _ _ hitem) ih

/-- A stretch of the images is the image of a stretch. -/
theorem Stands.of_map {υ : Type} {change : υ → τ} {property : List τ → Prop} {used : List υ}
    (h : Stands property (used.map change)) :
    Stands (fun part => property (part.map change)) used := by
  obtain ⟨part, hpart, hproperty⟩ := h
  obtain ⟨own, hown, rfl⟩ := List.infix_map_iff.1 hpart
  exact ⟨own, hown, hproperty⟩

theorem Row.of_map {υ : Type} {change : υ → τ} {relates : α → List τ → Prop} {items : List α}
    {images : List τ} (h : Row relates items images) {used : List υ}
    (himages : used.map change = images) :
    Row (fun item own => relates item (own.map change)) items used := by
  induction h generalizing used with
  | nil =>
    rw [List.map_eq_nil_iff] at himages
    subst himages
    exact .nil
  | cons hitem hitems ih =>
    obtain ⟨own, rest, rfl, rfl, hrest⟩ := List.map_eq_append_iff.1 himages
    exact .cons hitem (ih hrest)

end Stretches

/-- The span runs from the start of the first lexeme to the end of the last one. -/
def Span.Covers (span : Span) (used : List Lexeme) : Prop :=
  ∃ first ∈ used.head?, ∃ last ∈ used.getLast?, span = ⟨first.span.start, last.span.stop⟩

/-- The cursor moves over these lexemes. -/
structure Cursor.Passes (cursor : Cursor) (used : List Lexeme) (ahead : Cursor) : Prop where
  rest : cursor.rest = used ++ ahead.rest
  passed : ahead.passed = (used.getLast?.map (·.span.stop)).getD cursor.passed

theorem Cursor.Passes.refl (cursor : Cursor) : cursor.Passes [] cursor :=
  ⟨rfl, rfl⟩

theorem Cursor.Passes.trans {cursor between ahead : Cursor} {front back : List Lexeme}
    (hfront : cursor.Passes front between) (hback : between.Passes back ahead) :
    cursor.Passes (front ++ back) ahead where
  rest := by rw [hfront.rest, hback.rest, List.append_assoc]
  passed := by
    rw [hback.passed, hfront.passed, List.getLast?_append]
    cases back.getLast? <;> rfl

namespace Parser

variable {α β : Type}

/-- Where the reader succeeds, its value is related to the lexemes that it moves over. -/
structure Spells (reader : Parser α) (relates : α → List Lexeme → Prop) : Prop where
  of_ok : ∀ {cursor value ahead}, reader cursor = .ok (value, ahead) →
    ∃ used, cursor.Passes used ahead ∧ relates value used

/-- A reader whose value has no place in the text. -/
abbrev Consumes (reader : Parser α) : Prop :=
  Spells reader fun _ _ => True

/-! ## Sequences -/

section Combinators

variable {reader item : Parser α} {further : α → Parser β} {relates : α → List Lexeme → Prop}
  {result : β → List Lexeme → Prop}

theorem spells_pure {value : α} (h : relates value []) : Spells (pure value) relates where
  of_ok hread := by
    cases hread
    exact ⟨[], .refl _, h⟩

theorem Spells.bind (h : Spells reader relates)
    (hfurther : ∀ value front, relates value front →
      Spells (further value) fun answer back => result answer (front ++ back)) :
    Spells (reader >>= further) result where
  of_ok hread := by
    obtain ⟨value, between, hvalue, hread⟩ := bind_eq_ok_iff.1 hread
    obtain ⟨front, hfront, hrelates⟩ := h.of_ok hvalue
    obtain ⟨back, hback, hresult⟩ := (hfurther value front hrelates).of_ok hread
    exact ⟨front ++ back, hfront.trans hback, hresult⟩

theorem Spells.imp {weaker : α → List Lexeme → Prop} (h : Spells reader relates)
    (himp : ∀ value used, relates value used → weaker value used) : Spells reader weaker where
  of_ok hread := by
    obtain ⟨used, hused, hrelates⟩ := h.of_ok hread
    exact ⟨used, hused, himp _ used hrelates⟩

theorem Spells.consumes (h : Spells reader relates) : Consumes reader :=
  h.imp fun _ _ _ => trivial

theorem Spells.bind_pure (h : Spells reader relates)
    (hfurther : ∀ value used, relates value used →
      ∃ answer, further value = pure answer ∧ result answer used) :
    Spells (reader >>= further) result := by
  refine h.bind fun value used hrelates => ?_
  obtain ⟨answer, hanswer, hresult⟩ := hfurther value used hrelates
  rw [hanswer]
  apply spells_pure
  rwa [List.append_nil]

theorem Spells.and {other : α → List Lexeme → Prop} (h : Spells reader relates)
    (hother : Spells reader other) :
    Spells reader fun value used => relates value used ∧ other value used where
  of_ok hread := by
    obtain ⟨used, hused, hrelates⟩ := h.of_ok hread
    obtain ⟨others, hothers, hvalue⟩ := hother.of_ok hread
    have hsame : others = used := List.append_cancel_right (hothers.rest.symm.trans hused.rest)
    exact ⟨used, hused, hrelates, hsame ▸ hvalue⟩

/-- What a reader consumes is a phrase of the form that it reads. -/
theorem Spells.and_form {form : Form} {more : Option TokenKind → Bool} (h : Spells reader relates)
    (hreads : Reads reader form more) :
    Spells reader fun value used => used.map Lexeme.word ∈ form ∧ relates value used where
  of_ok hread := by
    obtain ⟨used, hused, hrelates⟩ := h.of_ok hread
    obtain ⟨phrase, hphrase, hform⟩ := hreads.sound hread
    have hsame : phrase = used := List.append_cancel_right (hphrase.symm.trans hused.rest)
    exact ⟨used, hused, hsame ▸ hform, hrelates⟩

/-- The span that is read along with a value covers the lexemes of the value. -/
theorem Spells.spanned (h : Spells item relates)
    (hne : ∀ value used, relates value used → used ≠ []) :
    Spells (Parser.spanned item) fun answer used =>
      answer.2.Covers used ∧ relates answer.1 used where
  of_ok {cursor answer ahead} hread := by
    obtain ⟨_, _, hget, hread⟩ := bind_eq_ok_iff.1 hread
    cases hget
    obtain ⟨value, between, hvalue, hread⟩ := bind_eq_ok_iff.1 hread
    cases hread
    obtain ⟨used, hused, hrelates⟩ := h.of_ok hvalue
    refine ⟨used, hused, ?_, hrelates⟩
    -- At least one lexeme was consumed, so the next one at the start and the last one passed at the
    -- end are both among the lexemes of the item.
    have hstop := hused.passed
    have hstart := hused.rest
    obtain ⟨last, hlast⟩ := Option.ne_none_iff_exists'.1
      (mt List.getLast?_eq_none_iff.1 (hne value used hrelates))
    obtain ⟨first, others, rfl⟩ := List.exists_cons_of_ne_nil (hne value used hrelates)
    rw [hlast] at hstop
    refine ⟨first, rfl, last, hlast, ?_⟩
    simp only [Cursor.start, hstart, List.cons_append]
    exact congrArg (Span.mk _) hstop

/-! ## Single lexemes and choices -/

theorem Spells.next?_bind {further : Option TokenKind → Parser β}
    (h : ∀ next, Spells (further next) result) : Spells (next? >>= further) result where
  of_ok {cursor _ _} hread := (h cursor.next?).of_ok hread

theorem Spells.accept?_bind {kind : TokenKind} {further : Option Lexeme → Parser β}
    (hpresent : ∀ lexeme, lexeme.kind = kind →
      Spells (further (some lexeme)) fun answer back => result answer (lexeme :: back))
    (habsent : Spells (further none) result) : Spells (accept? kind >>= further) result where
  of_ok {cursor answer ahead} hread := by
    obtain ⟨found, between, hfound, hread⟩ := bind_eq_ok_iff.1 hread
    unfold accept? at hfound
    split at hfound
    · next lexeme rest hrest =>
      split at hfound
      · next hkind =>
        cases hfound
        obtain ⟨back, hback, hresult⟩ := (hpresent lexeme hkind).of_ok hread
        have hlexeme : cursor.Passes [lexeme]
            { cursor with rest := rest, passed := lexeme.span.stop } := ⟨hrest, rfl⟩
        exact ⟨lexeme :: back, hlexeme.trans hback, hresult⟩
      · cases hfound
        exact habsent.of_ok hread
    · cases hfound
      exact habsent.of_ok hread

theorem consumes_accept? (kind : TokenKind) : Consumes (accept? kind) := by
  have h : Consumes (accept? kind >>= pure) := by
    apply Spells.accept?_bind
    · intro lexeme _
      exact spells_pure trivial
    · exact spells_pure trivial
  rwa [bind_pure] at h

theorem spells_reject (expected : Expected) : Spells (reject expected) relates where
  of_ok hread := nomatch hread

theorem spells_expect (kind : TokenKind) :
    Spells (expect kind) fun lexeme used => used = [lexeme] ∧ lexeme.kind = kind := by
  apply Spells.accept?_bind
  · intro lexeme hkind
    exact spells_pure ⟨rfl, hkind⟩
  · exact spells_reject _

theorem spells_discard_expect (kind : TokenKind) :
    Spells (discard (expect kind)) fun _ used => ∃ lexeme, used = [lexeme] ∧ lexeme.kind = kind :=
  (spells_expect kind).bind_pure fun lexeme _ h => ⟨_, rfl, lexeme, h⟩

theorem spells_keyword (word : Keyword) : Spells (keyword word) fun _ used =>
    ∃ lexeme, used = [lexeme] ∧ lexeme.kind = .keyword word :=
  spells_discard_expect _

theorem spells_symbol (mark : Symbol) : Spells (symbol mark) fun _ used =>
    ∃ lexeme, used = [lexeme] ∧ lexeme.kind = .symbol mark :=
  spells_discard_expect _

/-- An item behind a lexeme of this kind, if there is such a lexeme. -/
inductive Optional (kind : TokenKind) (relates : α → List Lexeme → Prop) :
    Option α → List Lexeme → Prop
  | none : Optional kind relates none []
  | some {lexeme : Lexeme} {value : α} {own : List Lexeme} (hkind : lexeme.kind = kind)
      (hvalue : relates value own) : Optional kind relates (some value) (lexeme :: own)

theorem Spells.after?_optional (h : Spells item relates) (kind : TokenKind) :
    Spells (Parser.after? kind item) (Optional kind relates) := by
  apply Spells.accept?_bind
  · intro lexeme hkind
    exact h.bind_pure fun value used hrelates => ⟨_, rfl, .some hkind hrelates⟩
  · exact spells_pure .none

theorem Spells.after? (h : Spells item relates) (kind : TokenKind) :
    Spells (Parser.after? kind item) fun found used =>
      ∀ value ∈ found, Stands (relates value) used := by
  refine (h.after?_optional kind).imp fun found used hfound => ?_
  cases hfound with
  | none => nofun
  | some hkind hvalue =>
    rintro _ ⟨⟩
    exact (Stands.self hvalue).behind _

/-! ## Lists -/

theorem Spells.repeatWhile (h : Spells item relates) (more : Option TokenKind → Bool) :
    Spells (Parser.repeatWhile more item) (Row relates) where
  of_ok {cursor values ahead} hread := by
    fun_induction Parser.repeatWhile more item cursor generalizing values ahead with
    | case1 => cases hread
    | case2 => cases hread
    | case3 cursor _ value between hitem _ values done hrest ih =>
      cases hread
      obtain ⟨own, hown, hrelates⟩ := h.of_ok hitem
      obtain ⟨others, hothers, hrow⟩ := ih hrest
      exact ⟨own ++ others, hown.trans hothers, .cons hrelates hrow⟩
    | case4 cursor _ value between hitem _ =>
      cases hread
      obtain ⟨own, hown, hrelates⟩ := h.of_ok hitem
      refine ⟨own, hown, ?_⟩
      rw [← List.append_nil own]
      exact .cons hrelates .nil
    | case5 =>
      cases hread
      exact ⟨[], .refl _, .nil⟩

/-- The lexemes of an item behind a mark. -/
def Marked (mark : Symbol) (relates : α → List Lexeme → Prop) (value : α)
    (used : List Lexeme) : Prop :=
  ∃ lexeme own, lexeme.kind = .symbol mark ∧ used = lexeme :: own ∧ relates value own

theorem Marked.stands {mark : Symbol} {value : α} {used : List Lexeme}
    (h : Marked mark relates value used) : Stands (relates value) used := by
  obtain ⟨lexeme, own, -, rfl, hown⟩ := h
  exact (Stands.self hown).behind lexeme

theorem Spells.separated (h : Spells item relates) (mark : Symbol) :
    Spells (Parser.separated mark item) fun items used =>
      ∃ own rest, used = own ++ rest ∧ relates items.1 own ∧
        Row (Marked mark relates) items.2 rest := by
  have hmarked : Spells (symbol mark *> item) (Marked mark relates) := by
    refine (spells_symbol mark).bind fun _ front hfront => ?_
    obtain ⟨lexeme, rfl, hkind⟩ := hfront
    exact h.imp fun value own hown => ⟨lexeme, own, hkind, rfl, hown⟩
  refine h.bind fun first own hown => ?_
  exact (hmarked.repeatWhile _).bind_pure fun others rest hrest =>
    ⟨_, rfl, own, rest, rfl, hown, hrest⟩

theorem Spells.separated_stands (h : Spells item relates) (mark : Symbol) :
    Spells (Parser.separated mark item) fun items used =>
      ∀ value ∈ items.1 :: items.2, Stands (relates value) used := by
  refine (h.separated mark).imp fun items used => ?_
  rintro ⟨own, rest, rfl, hown, hrest⟩
  rw [List.forall_mem_cons]
  refine ⟨(Stands.self hown).front, fun value hvalue => ?_⟩
  exact ((hrest.stands value hvalue).imp fun _ => Marked.stands).flat.back

theorem Spells.listed (h : Spells item relates) (close : Symbol) :
    Spells (Parser.listed close item) fun items used =>
      ∀ value ∈ items, Stands (relates value) used := by
  refine Spells.next?_bind fun next => ?_
  split
  · exact (spells_symbol close).bind_pure fun _ _ _ => ⟨_, rfl, nofun⟩
  · refine (h.separated_stands .comma).bind fun items front hitems => ?_
    exact (spells_symbol close).bind_pure fun _ _ _ =>
      ⟨_, rfl, fun value hvalue => (hitems value hvalue).front⟩

/-- Braces that are left out hold nothing. -/
theorem Spells.braced {body : Parser (List α)} {relates : List α → List Lexeme → Prop}
    (h : Spells body relates) (hempty : relates [] []) :
    Spells (Parser.braced body) fun items used => Stands (relates items) used := by
  have hbody : Spells (do
      let items ← body
      symbol .closeBrace
      return items) fun items used => Stands (relates items) used := by
    refine h.bind fun items front hitems => ?_
    exact (spells_symbol .closeBrace).bind_pure fun _ _ _ => ⟨_, rfl, (Stands.self hitems).front⟩
  refine (hbody.after? (.symbol .openBrace)).bind_pure fun found used hfound => ⟨_, rfl, ?_⟩
  cases found with
  | none => exact ⟨[], List.nil_infix, hempty⟩
  | some items => exact (hfound items rfl).flat

end Combinators

end Parser

end CrossModel
