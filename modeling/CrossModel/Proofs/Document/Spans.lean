import CrossModel.Proofs.Document.Parts
import CrossModel.Proofs.Text.Positions
import CrossModel.Proofs.Token.Tiling

/-!
# The spans of a document

Lexemes come in the order of the text and do not overlap. From this and from the lexemes that spell
each part of a document follow the places of all its spans: spans of parts that stand beside each
other do not overlap and come in the order of the document, the span of a rule or of a transition
holds the spans of its parts, and every span belongs to tokens of the text.
-/

namespace CrossModel

open Grammar
open scoped Computability

/-! ## Spans over ordered lexemes -/

namespace Span

/-- The span ends where the later one starts, or before. The two share no byte. -/
def Before (span later : Span) : Prop :=
  span.stop ≤ later.start

/-- The inner span starts and ends within the outer one. -/
def Encloses (outer inner : Span) : Prop :=
  outer.start ≤ inner.start ∧ inner.stop ≤ outer.stop

theorem Covers.exists_ends {span : Span} {used : List Lexeme} (h : span.Covers used) :
    ∃ first ∈ used, ∃ last ∈ used, span = ⟨first.span.start, last.span.stop⟩ := by
  obtain ⟨first, hfirst, last, hlast, hspan⟩ := h
  exact ⟨first, List.mem_of_head? hfirst, last, List.mem_of_getLast? hlast, hspan⟩

end Span

namespace Lexeme

/-- No lexeme is empty, and each one ends before the next one starts. -/
structure Ordered (lexemes : List Lexeme) : Prop where
  nonempty : ∀ lexeme ∈ lexemes, lexeme.span.start < lexeme.span.stop
  pairwise : lexemes.Pairwise fun lexeme later => lexeme.span.Before later.span

namespace Ordered

variable {used other : List Lexeme} {span : Span}

theorem of_infix (h : Ordered used) (hother : other <:+: used) : Ordered other where
  nonempty lexeme hlexeme := h.nonempty lexeme (hother.subset hlexeme)
  pairwise := h.pairwise.sublist hother.sublist

theorem start_le (h : Ordered used) {first : Lexeme} (hfirst : first ∈ used.head?) :
    ∀ lexeme ∈ used, first.span.start ≤ lexeme.span.start := by
  obtain ⟨others, rfl⟩ := List.head?_eq_some_iff.1 hfirst
  have hfirst := h.nonempty first List.mem_cons_self
  rw [List.forall_mem_cons]
  refine ⟨le_refl _, fun lexeme hlexeme => ?_⟩
  have hbefore := (List.pairwise_cons.1 h.pairwise).1 lexeme hlexeme
  exact le_trans (le_of_lt hfirst) hbefore

theorem le_stop (h : Ordered used) {last : Lexeme} (hlast : last ∈ used.getLast?) :
    ∀ lexeme ∈ used, lexeme.span.stop ≤ last.span.stop := by
  obtain ⟨others, rfl⟩ := List.getLast?_eq_some_iff.1 hlast
  have hlast := h.nonempty last (by simp)
  intro lexeme hlexeme
  rcases List.mem_append.1 hlexeme with hlexeme | hlexeme
  · have hbefore := (List.pairwise_append.1 h.pairwise).2.2 lexeme hlexeme last (by simp)
    exact le_trans hbefore (le_of_lt hlast)
  · rw [List.mem_singleton.1 hlexeme]

theorem encloses (h : Ordered used) (hspan : span.Covers used) {inner : Span}
    (hinner : Stands inner.Covers used) : span.Encloses inner := by
  obtain ⟨first, hfirst, last, hlast, rfl⟩ := hspan
  obtain ⟨part, hpart, hcovers⟩ := hinner
  obtain ⟨start, hstart, stop, hstop, rfl⟩ := hcovers.exists_ends
  exact ⟨h.start_le hfirst start (hpart.subset hstart), h.le_stop hlast stop (hpart.subset hstop)⟩

theorem start_lt_stop (h : Ordered used) (hspan : Stands span.Covers used) :
    span.start < span.stop := by
  obtain ⟨part, hpart, first, hfirst, last, hlast, rfl⟩ := hspan
  have hordered := h.of_infix hpart
  have hmem := List.mem_of_head? hfirst
  exact lt_of_lt_of_le (hordered.nonempty first hmem) (hordered.le_stop hlast first hmem)

theorem before {front back : List Lexeme} (h : Ordered (front ++ back)) {later : Span}
    (hspan : Stands span.Covers front) (hlater : Stands later.Covers back) :
    span.Before later := by
  obtain ⟨part, hpart, hcovers⟩ := hspan
  obtain ⟨other, hother, hcovers'⟩ := hlater
  obtain ⟨_, -, last, hlast, rfl⟩ := hcovers.exists_ends
  obtain ⟨first, hfirst, _, -, rfl⟩ := hcovers'.exists_ends
  exact (List.pairwise_append.1 h.pairwise).2.2 last (hpart.subset hlast) first
    (hother.subset hfirst)

end Ordered

end Lexeme

theorem Row.pairwise_before {α : Type} {relates : α → List Lexeme → Prop} {items : List α}
    {used : List Lexeme} (h : Row relates items used) (hordered : Lexeme.Ordered used)
    {span : α → Span} (hspan : ∀ item own, relates item own → Stands (span item).Covers own) :
    items.Pairwise fun item later => (span item).Before (span later) := by
  induction h with
  | nil => exact .nil
  | @cons item items own rest hitem hitems ih =>
    have hrest := hordered.of_infix (List.suffix_append own rest).isInfix
    refine .cons (fun later hlater => ?_) (ih hrest)
    have hstands := (hitems.stands later hlater).imp fun part hpart => hspan later part hpart
    exact hordered.before (hspan item own hitem) hstands.flat

theorem Row.stands_flatMap {α β : Type} {relates : α → List Lexeme → Prop} {items : List α}
    {used : List Lexeme} (h : Stands (Row relates items) used) {parts : α → List β}
    {property : β → List Lexeme → Prop}
    (hparts : ∀ item own, relates item own → ∀ part ∈ parts item, Stands (property part) own) :
    ∀ part ∈ items.flatMap parts, Stands (property part) used := by
  intro part hpart
  obtain ⟨row, hrow, hitems⟩ := h
  obtain ⟨item, hitem, hpart⟩ := List.mem_flatMap.1 hpart
  have hstands := (hitems.stands item hitem).imp fun own hown => hparts item own hown part hpart
  exact hstands.flat.within hrow

theorem Row.stands_filterMap {α β : Type} {relates : α → List Lexeme → Prop} {items : List α}
    {used : List Lexeme} (h : Row relates items used) {select : α → Option β}
    {property : β → List Lexeme → Prop}
    (hselect : ∀ item own, relates item own → ∀ part, select item = some part →
      Stands (property part) own) :
    ∀ part ∈ items.filterMap select, Stands (property part) used := by
  intro part hpart
  obtain ⟨item, hitem, hpart⟩ := List.mem_filterMap.1 hpart
  exact ((h.stands item hitem).imp fun own hown => hselect item own hown part hpart).flat

/-! ## Names and references -/

def Event.names (event : Event) : List Name :=
  event.name :: event.parameters

def Provider.names (provider : Provider) : List Name :=
  provider.name :: provider.events.flatMap (·.names)

def Provider.references (provider : Provider) : List Reference :=
  provider.events.flatMap (·.follows.toList)

def Transition.names (transition : Transition) : List Name :=
  transition.condition.toList.flatMap (·.fields)

/-- The state that a transition leads to, and the events that its condition reads. -/
def Transition.references (transition : Transition) : List Reference :=
  transition.state :: transition.condition.toList.flatMap (·.accesses)

def Rule.names (rule : Rule) : List Name :=
  rule.transitions.flatMap (·.names)

def Rule.references (rule : Rule) : List Reference :=
  rule.event :: rule.transitions.flatMap (·.references)

namespace Document

/-- All names in a document. -/
def names : Document → List Name
  | platform content => content.name :: content.providers.flatMap (·.names)
  | library content => content.name :: content.events.flatMap (·.names)
  | execution content => content.states ++ content.rules.flatMap (·.names)

/-- All references in a document. -/
def references : Document → List Reference
  | platform content => content.base.toList ++ content.providers.flatMap (·.references)
  | library content => content.events.flatMap (·.follows.toList)
  | execution content => content.providers ++ content.rules.flatMap (·.references)

def rules : Document → List Rule
  | execution content => content.rules
  | _ => []

end Document

theorem Reference.stands_span {reference : Reference} {used : List Lexeme}
    (h : Stands reference.SpelledBy used) : Stands reference.span.Covers used :=
  h.imp fun _ hpart => hpart.span.covers

theorem Name.stands_span {name : Name} {used : List Lexeme} (h : Stands name.SpelledBy used) :
    Stands name.span.Covers used :=
  h.imp fun _ hpart => hpart.covers

theorem Event.SpelledBy.stands_names {event : Event} {used : List Lexeme}
    (h : event.SpelledBy used) : ∀ name ∈ event.names, Stands name.SpelledBy used :=
  List.forall_mem_cons.2 ⟨h.name, h.parameters⟩

theorem Event.SpelledBy.stands_follows {event : Event} {used : List Lexeme}
    (h : event.SpelledBy used) :
    ∀ reference ∈ event.follows.toList, Stands reference.SpelledBy used :=
  fun reference hreference => h.follows reference (Option.mem_toList.1 hreference)

theorem Provider.SpelledBy.stands_names {provider : Provider} {used : List Lexeme}
    (h : provider.SpelledBy used) : ∀ name ∈ provider.names, Stands name.SpelledBy used :=
  List.forall_mem_cons.2 ⟨h.name,
    Row.stands_flatMap h.events fun _ _ hevent => hevent.stands_names⟩

theorem Provider.SpelledBy.stands_references {provider : Provider} {used : List Lexeme}
    (h : provider.SpelledBy used) :
    ∀ reference ∈ provider.references, Stands reference.SpelledBy used :=
  Row.stands_flatMap h.events fun _ _ hevent => hevent.stands_follows

namespace Transition.SpelledBy

variable {transition : Transition} {used : List Lexeme}

theorem stands_names (h : transition.SpelledBy used) :
    ∀ name ∈ transition.names, Stands name.SpelledBy used := by
  intro name hname
  obtain ⟨condition, hcondition, hname⟩ := List.mem_flatMap.1 hname
  exact (h.condition condition (Option.mem_toList.1 hcondition)).fields name hname

theorem stands_references (h : transition.SpelledBy used) :
    ∀ reference ∈ transition.references, Stands reference.SpelledBy used := by
  refine List.forall_mem_cons.2 ⟨h.state, fun reference hreference => ?_⟩
  obtain ⟨condition, hcondition, hreference⟩ := List.mem_flatMap.1 hreference
  exact (h.condition condition (Option.mem_toList.1 hcondition)).accesses reference hreference

end Transition.SpelledBy

namespace Rule.SpelledBy

variable {rule : Rule} {used : List Lexeme}

theorem stands_event (h : rule.SpelledBy used) : Stands rule.event.SpelledBy used := by
  obtain ⟨opening, event, brace, transitions, closing, rfl, -, hevent, -⟩ := h.parts
  exact (Stands.self hevent).front.behind opening

theorem stands_transitions (h : rule.SpelledBy used) :
    Stands (Row Transition.SpelledBy rule.transitions) used := by
  obtain ⟨opening, event, brace, transitions, closing, rfl, -, -, -, htransitions, -⟩ := h.parts
  refine ⟨transitions, ⟨opening :: (event ++ [brace]), [closing], by simp⟩, htransitions⟩

theorem stands_names (h : rule.SpelledBy used) :
    ∀ name ∈ rule.names, Stands name.SpelledBy used :=
  Row.stands_flatMap h.stands_transitions fun _ _ hown => hown.stands_names

theorem stands_references (h : rule.SpelledBy used) :
    ∀ reference ∈ rule.references, Stands reference.SpelledBy used :=
  List.forall_mem_cons.2 ⟨h.stands_event,
    Row.stands_flatMap h.stands_transitions fun _ _ hown => hown.stands_references⟩

end Rule.SpelledBy

namespace Execution.SpelledBy

variable {model : Execution} {used : List Lexeme}

theorem stands_providers (h : model.SpelledBy used) :
    ∀ reference ∈ model.providers, Stands reference.SpelledBy used := by
  obtain ⟨members, hmembers, hproviders, -⟩ := h.members
  rw [hproviders]
  refine hmembers.stands_filterMap fun member own hown reference hreference => ?_
  cases member <;> cases hreference
  exact hown

theorem stands_states (h : model.SpelledBy used) :
    ∀ name ∈ model.states, Stands name.SpelledBy used := by
  obtain ⟨members, hmembers, -, hstates, -⟩ := h.members
  rw [hstates]
  refine hmembers.stands_filterMap fun member own hown name hname => ?_
  cases member <;> cases hname
  exact hown

theorem stands_rules (h : model.SpelledBy used) :
    ∀ rule ∈ model.rules, Stands rule.SpelledBy used := by
  obtain ⟨members, hmembers, -, -, hrules⟩ := h.members
  rw [hrules]
  refine hmembers.stands_filterMap fun member own hown rule hrule => ?_
  cases member <;> cases hrule
  exact .self hown

theorem stands_names (h : model.SpelledBy used) :
    ∀ name ∈ model.states ++ model.rules.flatMap (·.names), Stands name.SpelledBy used := by
  refine List.forall_mem_append.2 ⟨h.stands_states, fun name hname => ?_⟩
  obtain ⟨rule, hrule, hname⟩ := List.mem_flatMap.1 hname
  exact ((h.stands_rules rule hrule).imp fun _ hpart => hpart.stands_names name hname).flat

theorem stands_references (h : model.SpelledBy used) :
    ∀ reference ∈ model.providers ++ model.rules.flatMap (·.references),
      Stands reference.SpelledBy used := by
  refine List.forall_mem_append.2 ⟨h.stands_providers, fun reference hreference => ?_⟩
  obtain ⟨rule, hrule, hreference⟩ := List.mem_flatMap.1 hreference
  exact ((h.stands_rules rule hrule).imp fun _ hpart =>
    hpart.stands_references reference hreference).flat

end Execution.SpelledBy

namespace Document.BodySpelledBy

variable {document : Document} {used : List Lexeme}

theorem stands_names (h : document.BodySpelledBy used) :
    ∀ name ∈ document.names, Stands name.SpelledBy used := by
  cases document with
  | platform content =>
    have hnames := Row.stands_flatMap h.providers fun _ _ hown => hown.stands_names
    exact List.forall_mem_cons.2 ⟨h.name, hnames⟩
  | library content =>
    have hnames := Row.stands_flatMap h.events fun _ _ hown => hown.stands_names
    exact List.forall_mem_cons.2 ⟨h.name, hnames⟩
  | execution content => exact Execution.SpelledBy.stands_names h

theorem stands_references (h : document.BodySpelledBy used) :
    ∀ reference ∈ document.references, Stands reference.SpelledBy used := by
  cases document with
  | platform content =>
    have hproviders := Row.stands_flatMap h.providers fun _ _ hown => hown.stands_references
    refine List.forall_mem_append.2 ⟨fun reference hreference => ?_, hproviders⟩
    exact h.base reference (Option.mem_toList.1 hreference)
  | library content =>
    exact Row.stands_flatMap h.events fun _ _ hown => hown.stands_follows
  | execution content => exact Execution.SpelledBy.stands_references h

theorem stands_rules (h : document.BodySpelledBy used) :
    ∀ rule ∈ document.rules, Stands rule.SpelledBy used := by
  cases document with
  | execution content => exact Execution.SpelledBy.stands_rules h
  | _ => nofun

end Document.BodySpelledBy

namespace Document.SpelledBy

variable {document : Document} {used : List Lexeme}

theorem stands_imports (h : document.SpelledBy used) : ∀ declaration ∈ document.imports,
    Stands (declaration.span.SpelledBy importForm) used := by
  obtain ⟨imports, body, rfl, himports, -⟩ := h.parts
  exact fun declaration hdeclaration => (himports.stands declaration hdeclaration).front

theorem stands_names (h : document.SpelledBy used) :
    ∀ name ∈ document.names, Stands name.SpelledBy used := by
  obtain ⟨imports, body, rfl, -, -, hbody⟩ := h.parts
  exact fun name hname => (hbody.stands_names name hname).back

theorem stands_references (h : document.SpelledBy used) :
    ∀ reference ∈ document.references, Stands reference.SpelledBy used := by
  obtain ⟨imports, body, rfl, -, -, hbody⟩ := h.parts
  exact fun reference hreference => (hbody.stands_references reference hreference).back

theorem stands_rules (h : document.SpelledBy used) :
    ∀ rule ∈ document.rules, Stands rule.SpelledBy used := by
  obtain ⟨imports, body, rfl, -, -, hbody⟩ := h.parts
  exact fun rule hrule => (hbody.stands_rules rule hrule).back

theorem stands_transitions (h : document.SpelledBy used) :
    ∀ rule ∈ document.rules, ∀ transition ∈ rule.transitions,
      Stands transition.SpelledBy used := by
  intro rule hrule transition htransition
  obtain ⟨own, hown, hspelled⟩ := h.stands_rules rule hrule
  obtain ⟨part, hpart, htransitions⟩ := hspelled.stands_transitions
  exact (htransitions.stands transition htransition).within (hpart.trans hown)

end Document.SpelledBy

/-! ## Siblings -/

namespace Document

/-- The spans of the things that stand beside each other, in lists of one kind. -/
def siblings (document : Document) : List (List Span) :=
  document.imports.map (·.span) ::
    match document with
    | platform content =>
      content.providers.map (·.name.span) ::
        content.providers.map fun provider => provider.events.map (·.name.span)
    | library content => [content.events.map (·.name.span)]
    | execution content =>
      content.providers.map (·.span) :: content.states.map (·.span) ::
        content.rules.map (·.span) ::
          content.rules.map fun rule => rule.transitions.map (·.span)

end Document

/-- The span of what a member declares or refers to. -/
def Parser.ExecutionMember.span : ExecutionMember → Span
  | provider reference => reference.span
  | state name => name.span
  | rule content => content.span

theorem Parser.ExecutionMember.SpelledBy.stands_span {member : ExecutionMember}
    {used : List Lexeme} (h : member.SpelledBy used) : Stands member.span.Covers used := by
  cases member with
  | provider reference => exact Reference.stands_span h
  | state name => exact Name.stands_span h
  | rule content => exact .self (Rule.SpelledBy.covers h)

section Siblings

variable {used : List Lexeme}

theorem Row.pairwise_events {events : List Event} (h : Stands (Row Event.SpelledBy events) used)
    (hordered : Lexeme.Ordered used) : (events.map (·.name.span)).Pairwise Span.Before := by
  obtain ⟨part, hpart, hevents⟩ := h
  rw [List.pairwise_map]
  exact hevents.pairwise_before (hordered.of_infix hpart) fun _ _ hown => Name.stands_span hown.name

theorem Execution.SpelledBy.pairwise_members {model : Execution} (h : model.SpelledBy used)
    (hordered : Lexeme.Ordered used) :
    (model.providers.map (·.span)).Pairwise Span.Before ∧
      (model.states.map (·.span)).Pairwise Span.Before ∧
      (model.rules.map (·.span)).Pairwise Span.Before := by
  obtain ⟨members, hmembers, hproviders, hstates, hrules⟩ := h.members
  have hpairwise := hmembers.pairwise_before hordered fun _ _ hown => hown.stands_span
  rw [hproviders, hstates, hrules, List.pairwise_map, List.pairwise_map, List.pairwise_map]
  refine ⟨hpairwise.filterMap _ ?_, hpairwise.filterMap _ ?_, hpairwise.filterMap _ ?_⟩
  all_goals
    intro member later hbefore first hfirst second hsecond
    cases member <;> cases hfirst
    cases later <;> cases hsecond
    exact hbefore

theorem Rule.SpelledBy.pairwise_transitions {rule : Rule} (h : rule.SpelledBy used)
    (hordered : Lexeme.Ordered used) : (rule.transitions.map (·.span)).Pairwise Span.Before := by
  obtain ⟨part, hpart, htransitions⟩ := h.stands_transitions
  rw [List.pairwise_map]
  exact htransitions.pairwise_before (hordered.of_infix hpart) fun _ _ hown =>
    .self hown.span.covers

theorem Document.SpelledBy.pairwise_siblings {document : Document} (h : document.SpelledBy used)
    (hordered : Lexeme.Ordered used) :
    ∀ row ∈ document.siblings, row.Pairwise Span.Before := by
  obtain ⟨imports, body, rfl, himports, -, hbody⟩ := h.parts
  have hfront := hordered.of_infix (List.prefix_append imports body).isInfix
  have hback := hordered.of_infix (List.suffix_append imports body).isInfix
  refine List.forall_mem_cons.2 ⟨?_, ?_⟩
  · rw [List.pairwise_map]
    exact himports.pairwise_before hfront fun _ _ hown => .self hown.covers
  · cases document with
    | platform content =>
      obtain ⟨part, hpart, hproviders⟩ := hbody.providers
      have hpart := hback.of_infix hpart
      refine List.forall_mem_cons.2 ⟨?_, List.forall_mem_map.2 fun provider hprovider => ?_⟩
      · rw [List.pairwise_map]
        exact hproviders.pairwise_before hpart fun _ _ hown => Name.stands_span hown.name
      · obtain ⟨own, hown, hspelled⟩ := hproviders.stands provider hprovider
        exact Row.pairwise_events hspelled.events (hpart.of_infix hown)
    | library content =>
      exact List.forall_mem_singleton.2 (Row.pairwise_events hbody.events hback)
    | execution content =>
      obtain ⟨hproviders, hstates, hrules⟩ := Execution.SpelledBy.pairwise_members hbody hback
      refine List.forall_mem_cons.2 ⟨hproviders, List.forall_mem_cons.2 ⟨hstates,
        List.forall_mem_cons.2 ⟨hrules, List.forall_mem_map.2 fun rule hrule => ?_⟩⟩⟩
      obtain ⟨own, hown, hspelled⟩ := Execution.SpelledBy.stands_rules hbody rule hrule
      exact hspelled.pairwise_transitions (hback.of_infix hown)

/-- The imports stand before everything that the document refers to. -/
theorem Document.SpelledBy.imports_before {document : Document} (h : document.SpelledBy used)
    (hordered : Lexeme.Ordered used) : ∀ declaration ∈ document.imports,
      ∀ reference ∈ document.references, declaration.span.Before reference.span := by
  obtain ⟨imports, body, rfl, himports, -, hbody⟩ := h.parts
  intro declaration hdeclaration reference hreference
  have hfront := (himports.stands declaration hdeclaration).imp fun _ hown => hown.covers
  have hback := Reference.stands_span (hbody.stands_references reference hreference)
  exact hordered.before hfront hback

end Siblings

/-! ## Nesting -/

/-- The spans inside a transition. -/
def Transition.innerSpans (transition : Transition) : List Span :=
  transition.references.map (·.span) ++ transition.names.map (·.span)

/-- The span of the rule's event and those of its transitions. -/
def Rule.innerSpans (rule : Rule) : List Span :=
  rule.event.span :: rule.transitions.map (·.span)

theorem Transition.SpelledBy.encloses {transition : Transition} {used : List Lexeme}
    (h : transition.SpelledBy used) (hordered : Lexeme.Ordered used) :
    ∀ inner ∈ transition.innerSpans, transition.span.Encloses inner := by
  refine List.forall_mem_append.2 ⟨List.forall_mem_map.2 fun reference hreference => ?_,
    List.forall_mem_map.2 fun name hname => ?_⟩
  · have hstands := h.stands_references reference hreference
    exact hordered.encloses h.span.covers (Reference.stands_span hstands)
  · exact hordered.encloses h.span.covers (Name.stands_span (h.stands_names name hname))

theorem Rule.SpelledBy.encloses {rule : Rule} {used : List Lexeme} (h : rule.SpelledBy used)
    (hordered : Lexeme.Ordered used) : ∀ inner ∈ rule.innerSpans, rule.span.Encloses inner := by
  obtain ⟨part, hpart, htransitions⟩ := h.stands_transitions
  refine List.forall_mem_cons.2 ⟨?_, List.forall_mem_map.2 fun transition htransition => ?_⟩
  · exact hordered.encloses h.covers (Reference.stands_span h.stands_event)
  · have hstands := (htransitions.stands transition htransition).imp fun _ hown => hown.span.covers
    exact hordered.encloses h.covers (hstands.within hpart)

/-! ## All spans -/

namespace Document

/-- All spans of a document. -/
def spans (document : Document) : List Span :=
  document.imports.map (·.span) ++ document.references.map (·.span) ++
    document.names.map (·.span) ++
    document.rules.flatMap fun rule => rule.span :: rule.transitions.map (·.span)

theorem SpelledBy.stands_spans {document : Document} {used : List Lexeme}
    (h : document.SpelledBy used) : ∀ span ∈ document.spans, Stands span.Covers used := by
  simp only [spans, List.forall_mem_append, List.forall_mem_map]
  refine ⟨⟨⟨fun declaration hdeclaration => ?_, fun reference hreference => ?_⟩,
    fun name hname => ?_⟩, fun span hspan => ?_⟩
  · exact (h.stands_imports declaration hdeclaration).imp fun _ hown => hown.covers
  · exact Reference.stands_span (h.stands_references reference hreference)
  · exact Name.stands_span (h.stands_names name hname)
  · obtain ⟨rule, hrule, hspan⟩ := List.mem_flatMap.1 hspan
    rcases List.mem_cons.1 hspan with rfl | hspan
    · exact (h.stands_rules rule hrule).imp fun _ hown => hown.covers
    · obtain ⟨transition, htransition, rfl⟩ := List.mem_map.1 hspan
      exact (h.stands_transitions rule hrule transition htransition).imp fun _ hown =>
        hown.span.covers

end Document

/-! ## Tokens -/

namespace Lexeme

def ofToken (index : LineIndex) (token : Token) : Lexeme :=
  ⟨token.kind, token.text, index.span token.start token.stop⟩

theorem ofText_eq_map (source : String) :
    ofText source = (Token.significant source).map (ofToken (.ofText source)) := rfl

theorem ordered_ofText (source : String) : Ordered (ofText source) where
  nonempty := by
    rw [ofText_eq_map, List.forall_mem_map]
    intro token htoken
    have hlt := Token.start_lt_stop_of_mem_scan (List.mem_of_mem_filter htoken)
    exact (LineIndex.ofText source).strictMono_position hlt
  pairwise := by
    rw [ofText_eq_map, List.pairwise_map]
    have hscan := (Token.tiles_scan source).pairwise
    have hmono := (LineIndex.ofText source).strictMono_position.monotone
    exact (hscan.filter _).imp fun hle => hmono hle

theorem stop_le_of_mem_ofText {source : String} :
    ∀ lexeme ∈ ofText source,
      lexeme.span.stop ≤ (LineIndex.ofText source).position source.utf8ByteSize := by
  rw [ofText_eq_map, List.forall_mem_map]
  intro token htoken
  exact (LineIndex.ofText source).strictMono_position.monotone
    (Token.stop_le_of_mem_scan (List.mem_of_mem_filter htoken))

end Lexeme

namespace Span

/-- The span runs from the first byte of the first token to the last byte of the last one. -/
def RunsOver (source : String) (span : Span) (tokens : List Token) : Prop :=
  ∃ first ∈ tokens.head?, ∃ last ∈ tokens.getLast?,
    span = (LineIndex.ofText source).span first.start last.stop

/-- The tokens have the form, and the span runs over them. -/
structure WrittenAs (source : String) (form : Form) (span : Span) (tokens : List Token) :
    Prop where
  form : tokens.map Token.word ∈ form
  runs : span.RunsOver source tokens

theorem Covers.runsOver {source : String} {span : Span} {tokens : List Token}
    (h : span.Covers (tokens.map (Lexeme.ofToken (.ofText source)))) :
    span.RunsOver source tokens := by
  obtain ⟨first, hfirst, last, hlast, rfl⟩ := h
  rw [Option.mem_def, List.head?_map, Option.map_eq_some_iff] at hfirst
  rw [Option.mem_def, List.getLast?_map, Option.map_eq_some_iff] at hlast
  obtain ⟨start, hstart, rfl⟩ := hfirst
  obtain ⟨stop, hstop, rfl⟩ := hlast
  exact ⟨start, hstart, stop, hstop, rfl⟩

theorem SpelledBy.writtenAs {source : String} {form : Form} {span : Span} {tokens : List Token}
    (h : span.SpelledBy form (tokens.map (Lexeme.ofToken (.ofText source)))) :
    span.WrittenAs source form tokens := by
  refine ⟨?_, h.covers.runsOver⟩
  have hform := h.form
  rwa [List.map_map] at hform

end Span

/-- A rule is written as `on`, its event, and its transitions one behind the other in braces. -/
structure Rule.WrittenAs (source : String) (rule : Rule) (tokens : List Token) : Prop where
  runs : rule.span.RunsOver source tokens
  parts : ∃ opening event brace transitions closing,
    tokens = opening :: (event ++ brace :: (transitions ++ [closing])) ∧
    opening.kind = .keyword .onKw ∧ rule.event.span.WrittenAs source Grammar.qualified event ∧
    brace.kind = .symbol .openBrace ∧
    Row (fun transition => transition.span.WrittenAs source Grammar.transition)
      rule.transitions transitions ∧
    closing.kind = .symbol .closeBrace

theorem Rule.SpelledBy.writtenAs {source : String} {rule : Rule} {tokens : List Token}
    (h : rule.SpelledBy (tokens.map (Lexeme.ofToken (.ofText source)))) :
    rule.WrittenAs source tokens := by
  refine ⟨h.covers.runsOver, ?_⟩
  obtain ⟨_, _, _, _, _, htokens, hon, hevent, hopen, htransitions, hclose⟩ := h.parts
  obtain ⟨opening, behindOpening, rfl, rfl, hopening⟩ := List.map_eq_cons_iff.1 htokens
  obtain ⟨event, behindEvent, rfl, rfl, hbehind⟩ := List.map_eq_append_iff.1 hopening
  obtain ⟨brace, behindBrace, rfl, rfl, hbrace⟩ := List.map_eq_cons_iff.1 hbehind
  obtain ⟨transitions, last, rfl, hmap, hlast⟩ := List.map_eq_append_iff.1 hbrace
  obtain ⟨closing, rfl, rfl⟩ := List.map_eq_singleton_iff.1 hlast
  refine ⟨opening, event, brace, transitions, closing, rfl, hon, hevent.span.writtenAs, hopen,
    ?_, hclose⟩
  exact (htransitions.of_map hmap).imp fun _ _ hown => hown.span.writtenAs

namespace Document

/-- Where the spans of a document are in the text it was read from. -/
structure SpansExact (source : String) (document : Document) : Prop where
  /-- A name is the text of one identifier and has its span. -/
  names : ∀ name ∈ document.names, ∃ token ∈ Token.significant source, token.kind = .ident ∧
    source.toUTF8.extract token.start token.stop = name.text.toUTF8 ∧
    name.span = (LineIndex.ofText source).span token.start token.stop
  /-- A reference runs over identifiers with dots between them and is the text of these tokens. -/
  references : ∀ reference ∈ document.references, Stands (fun tokens =>
    reference.span.WrittenAs source Grammar.qualified tokens ∧
      reference.text = String.join (tokens.map (·.text))) (Token.significant source)
  /-- The text starts with the imports, one behind the other, and goes on with something else. -/
  imports : ∃ front body, Token.significant source = front ++ body ∧
    Row (fun declaration => declaration.span.WrittenAs source importForm) document.imports front ∧
    body.map Token.word ∈ Grammar.platform + Grammar.library + Grammar.executionMember∗
  rules : ∀ rule ∈ document.rules, Stands (rule.WrittenAs source) (Token.significant source)
  siblings : ∀ row ∈ document.siblings, row.Pairwise Span.Before
  inRules : ∀ rule ∈ document.rules, ∀ inner ∈ rule.innerSpans, rule.span.Encloses inner
  inTransitions : ∀ rule ∈ document.rules, ∀ transition ∈ rule.transitions,
    ∀ inner ∈ transition.innerSpans, transition.span.Encloses inner
  inside : ∀ span ∈ document.spans, span.start < span.stop ∧
    span.stop ≤ (LineIndex.ofText source).position source.utf8ByteSize

theorem dotsSpelled_ofText (source : String) : DotsSpelled (Lexeme.ofText source) := by
  rw [DotsSpelled, Lexeme.ofText_eq_map, List.forall_mem_map]
  intro token htoken hkind
  exact Token.text_of_mem_scan (List.mem_of_mem_filter htoken) hkind

section Exact

variable {source : String} {document : Document}

theorem SpelledBy.names_exact (h : document.SpelledBy (Lexeme.ofText source)) {name : Name}
    (hname : name ∈ document.names) :
    ∃ token ∈ Token.significant source, token.kind = .ident ∧
      source.toUTF8.extract token.start token.stop = name.text.toUTF8 ∧
      name.span = (LineIndex.ofText source).span token.start token.stop := by
  obtain ⟨part, hpart, lexeme, hkind, rfl, rfl⟩ := h.stands_names name hname
  have hlexeme := hpart.subset List.mem_cons_self
  rw [Lexeme.ofText_eq_map] at hlexeme
  obtain ⟨token, htoken, rfl⟩ := List.mem_map.1 hlexeme
  exact ⟨token, htoken, hkind, Token.extract_of_mem_scan (List.mem_of_mem_filter htoken), rfl⟩

theorem SpelledBy.references_exact (h : document.SpelledBy (Lexeme.ofText source))
    {reference : Reference} (hreference : reference ∈ document.references) :
    Stands (fun tokens => reference.span.WrittenAs source Grammar.qualified tokens ∧
      reference.text = String.join (tokens.map (·.text))) (Token.significant source) := by
  have hstands := h.stands_references reference hreference
  rw [Lexeme.ofText_eq_map] at hstands
  obtain ⟨tokens, htokens, hspelled⟩ := hstands.of_map
  refine ⟨tokens, htokens, hspelled.span.writtenAs, ?_⟩
  have hdots : DotsSpelled (tokens.map (Lexeme.ofToken (.ofText source))) :=
    fun lexeme hlexeme => dotsSpelled_ofText source lexeme ((htokens.map _).subset hlexeme)
  have htext := hspelled.text hdots
  rwa [List.map_map] at htext

theorem SpelledBy.imports_exact (h : document.SpelledBy (Lexeme.ofText source)) :
    ∃ front body, Token.significant source = front ++ body ∧
      Row (fun declaration => declaration.span.WrittenAs source importForm)
        document.imports front ∧
      body.map Token.word ∈ Grammar.platform + Grammar.library + Grammar.executionMember∗ := by
  obtain ⟨imports, body, hused, himports, hform, -⟩ := h.parts
  rw [Lexeme.ofText_eq_map] at hused
  obtain ⟨front, back, hsplit, rfl, rfl⟩ := List.map_eq_append_iff.1 hused
  rw [List.map_map] at hform
  exact ⟨front, back, hsplit, (himports.of_map rfl).imp fun _ _ hown => hown.writtenAs, hform⟩

theorem SpelledBy.rules_exact (h : document.SpelledBy (Lexeme.ofText source)) {rule : Rule}
    (hrule : rule ∈ document.rules) :
    Stands (rule.WrittenAs source) (Token.significant source) := by
  have hstands := h.stands_rules rule hrule
  rw [Lexeme.ofText_eq_map] at hstands
  exact hstands.of_map.imp fun _ hown => hown.writtenAs

theorem SpelledBy.inside (h : document.SpelledBy (Lexeme.ofText source)) {span : Span}
    (hspan : span ∈ document.spans) : span.start < span.stop ∧
      span.stop ≤ (LineIndex.ofText source).position source.utf8ByteSize := by
  have hstands := h.stands_spans span hspan
  refine ⟨(Lexeme.ordered_ofText source).start_lt_stop hstands, ?_⟩
  obtain ⟨part, hpart, hcovers⟩ := hstands
  obtain ⟨first, hfirst, last, hlast, rfl⟩ := hcovers.exists_ends
  exact Lexeme.stop_le_of_mem_ofText last (hpart.subset hlast)

end Exact

/-- The spans of a document that was read from a text are exact. -/
theorem spansExact_of_parse {source location : String} {document : Document}
    (h : parse source location = .ok document) : SpansExact source document := by
  have hspelled := spelledBy_of_parse h
  have hordered := Lexeme.ordered_ofText source
  refine ⟨fun _ => hspelled.names_exact, fun _ => hspelled.references_exact,
    hspelled.imports_exact, fun _ => hspelled.rules_exact, hspelled.pairwise_siblings hordered,
    ?_, ?_, fun _ => hspelled.inside⟩
  · intro rule hrule
    obtain ⟨own, hown, hrule⟩ := hspelled.stands_rules rule hrule
    exact hrule.encloses (hordered.of_infix hown)
  · intro rule hrule transition htransition
    obtain ⟨own, hown, hspelled⟩ := hspelled.stands_transitions rule hrule transition htransition
    exact hspelled.encloses (hordered.of_infix hown)

/-- A text with an import and a rule, in which a comment stands inside of a reference. -/
def sampleRule : String :=
  "import platform \"P\" as p\non p /* */ .e \x7b -> done when x.y \x7d"

def sampleRuleDocument : Document :=
  .execution {
    imports := [⟨.platform, "P", some "p", ⟨⟨0, 0⟩, ⟨0, 24⟩⟩⟩]
    rules := [{
      event := ⟨"p.e", ⟨⟨1, 3⟩, ⟨1, 13⟩⟩⟩
      transitions := [{
        state := ⟨"done", ⟨⟨1, 19⟩, ⟨1, 23⟩⟩⟩
        condition := some (.access ⟨"x", ⟨⟨1, 29⟩, ⟨1, 30⟩⟩⟩ (some ⟨"y", ⟨⟨1, 31⟩, ⟨1, 32⟩⟩⟩))
        span := ⟨⟨1, 16⟩, ⟨1, 32⟩⟩ }]
      span := ⟨⟨1, 0⟩, ⟨1, 34⟩⟩ }]
    location := "a" }

theorem spansExact_of_parse_sampleRule :
    parse sampleRule "a" = .ok sampleRuleDocument ∧ SpansExact sampleRule sampleRuleDocument := by
  have h : parse sampleRule "a" = .ok sampleRuleDocument := by
    decide +kernel
  exact ⟨h, spansExact_of_parse h⟩

end Document

end CrossModel
