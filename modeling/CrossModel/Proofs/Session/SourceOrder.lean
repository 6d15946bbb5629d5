import CrossModel.Proofs.Document.Location
import CrossModel.Proofs.Document.Spans
import CrossModel.Proofs.Link.Follows
import CrossModel.Proofs.Session.ExecutionReports
import CrossModel.Proofs.Session.Run

/-!
# Diagnostics in the order of the document

Whatever the state of the session, checking a document that was read from a text reports errors at
the imports and references of the document, in the order of the text. For platforms and execution
models the diagnostics are sorted together. For libraries those of the imports are sorted apart from
those of the links, and the order of the whole comes from the text: imports stand before everything
that a library refers to.
-/

namespace CrossModel

/-! ## What a diagnostic points at -/

/-- The diagnostic is an error at one of the spans in the document at this location. -/
structure Diagnostic.PointsInto (location : String) (spans : List Span) (diagnostic : Diagnostic) :
    Prop where
  severity : diagnostic.severity = .error
  location : diagnostic.location = location
  span : diagnostic.span ∈ spans

namespace Diagnostic

variable {location : String} {spans : List Span} {diagnostic : Diagnostic}

theorem PointsInto.mono {others : List Span} (h : diagnostic.PointsInto location spans)
    (hspans : spans ⊆ others) : diagnostic.PointsInto location others :=
  ⟨h.severity, h.location, hspans h.span⟩

/-- A link is reported at its reference or not at all. -/
theorem pointsInto_of_mem_ofLink {α : Type} {relation : Relation} {reference : Reference}
    {found : Option α} (h : diagnostic ∈ ofLink location relation (.ofOption reference found))
    (hspan : reference.span ∈ spans) : diagnostic.PointsInto location spans := by
  cases found with
  | some target => cases h
  | none =>
    rw [List.mem_singleton.1 h]
    exact ⟨rfl, rfl, hspan⟩

theorem forall_mem_inSourceOrder {property : Diagnostic → Prop} {diagnostics : List Diagnostic}
    (h : ∀ diagnostic ∈ diagnostics, property diagnostic) :
    ∀ diagnostic ∈ inSourceOrder diagnostics, property diagnostic :=
  fun diagnostic hdiagnostic =>
    h diagnostic ((stablySorted_inSourceOrder diagnostics).mem_iff.1 hdiagnostic)

end Diagnostic

open Diagnostic (PointsInto pointsInto_of_mem_ofLink)

theorem Session.pointsInto_of_mem_failures (session : Session) (files : FileSystem)
    {imports : List ImportDeclaration} {location : String} :
    ∀ diagnostic ∈ (session.importScope files imports).value.failures.map
      (Diagnostic.ofFailedImport location),
      diagnostic.PointsInto location (imports.map (·.span)) := by
  rw [failures_importScope]
  intro diagnostic hdiagnostic
  obtain ⟨⟨declaration, result⟩, hmem, hfault⟩ := List.mem_filterMap.1 hdiagnostic
  cases result with
  | ok definition => cases hfault
  | error error =>
    cases hfault
    exact ⟨rfl, rfl, List.mem_map_of_mem (List.of_mem_zip hmem).1⟩

namespace Scope

variable (scope : Scope)

theorem pointsInto_of_mem_transition (model : Execution) (transition : Transition)
    {location : String} :
    ∀ diagnostic ∈ LinkedExecution.transitionDiagnostics location
      (scope.linkTransition model transition),
      diagnostic.PointsInto location (transition.references.map (·.span)) := by
  unfold LinkedExecution.transitionDiagnostics
  rw [state_linkTransition, accesses_linkTransition, List.flatMap_map]
  refine List.forall_mem_append.2 ⟨fun diagnostic hdiagnostic => ?_,
    fun diagnostic hdiagnostic => ?_⟩
  · exact pointsInto_of_mem_ofLink hdiagnostic List.mem_cons_self
  · obtain ⟨reference, hreference, hdiagnostic⟩ := List.mem_flatMap.1 hdiagnostic
    apply pointsInto_of_mem_ofLink hdiagnostic
    apply List.mem_map_of_mem
    unfold Transition.accesses at hreference
    cases hcondition : transition.condition with
    | none => simp [hcondition] at hreference
    | some condition =>
      rw [hcondition] at hreference
      simpa [Transition.references, hcondition] using .inr hreference

theorem pointsInto_of_mem_rule (model : Execution) (rule : Rule) {location : String} :
    ∀ diagnostic ∈ LinkedExecution.ruleDiagnostics location (scope.linkRule model rule),
      diagnostic.PointsInto location (rule.references.map (·.span)) := by
  unfold LinkedExecution.ruleDiagnostics linkRule
  rw [linkEvent_eq scope .ruleEvent rfl, List.flatMap_map]
  refine List.forall_mem_append.2 ⟨fun diagnostic hdiagnostic => ?_,
    fun diagnostic hdiagnostic => ?_⟩
  · exact pointsInto_of_mem_ofLink hdiagnostic List.mem_cons_self
  · obtain ⟨transition, htransition, hdiagnostic⟩ := List.mem_flatMap.1 hdiagnostic
    apply (scope.pointsInto_of_mem_transition model transition diagnostic hdiagnostic).mono
    apply List.map_subset
    intro reference hreference
    exact List.mem_cons_of_mem _ (List.mem_flatMap.2 ⟨transition, htransition, hreference⟩)

theorem pointsInto_of_mem_providers (providers : List Reference) {location : String} :
    ∀ diagnostic ∈ (providers.map scope.linkProvider).flatMap
      (Diagnostic.ofLink location .usedProvider),
      diagnostic.PointsInto location (providers.map (·.span)) := by
  rw [List.flatMap_map]
  intro diagnostic hdiagnostic
  obtain ⟨reference, hreference, hdiagnostic⟩ := List.mem_flatMap.1 hdiagnostic
  rw [linkProvider_eq] at hdiagnostic
  exact pointsInto_of_mem_ofLink hdiagnostic (List.mem_map_of_mem hreference)

theorem pointsInto_of_mem_rules (model : Execution) {location : String} :
    ∀ diagnostic ∈ (model.rules.map (scope.linkRule model)).flatMap
      (LinkedExecution.ruleDiagnostics location),
      diagnostic.PointsInto location ((model.rules.flatMap (·.references)).map (·.span)) := by
  rw [List.flatMap_map]
  intro diagnostic hdiagnostic
  obtain ⟨rule, hrule, hdiagnostic⟩ := List.mem_flatMap.1 hdiagnostic
  apply (scope.pointsInto_of_mem_rule model rule diagnostic hdiagnostic).mono
  apply List.map_subset
  intro reference hreference
  exact List.mem_flatMap.2 ⟨rule, hrule, hreference⟩

theorem pointsInto_of_mem_base (base : Option Reference) {location : String} :
    ∀ diagnostic ∈ (base.map fun reference => Link.establish .platformBase reference
        fun r => (scope.base? r.text).toList).toList.flatMap
      (Diagnostic.ofLink location .platformBase),
      diagnostic.PointsInto location (base.toList.map (·.span)) := by
  cases base with
  | none => nofun
  | some reference =>
    intro diagnostic hdiagnostic
    rw [Option.map_some, Link.establish_of_not_bidirectional rfl, Option.toList_some,
      List.flatMap_singleton] at hdiagnostic
    exact pointsInto_of_mem_ofLink hdiagnostic List.mem_cons_self

end Scope

theorem Library.pointsInto_of_mem_link (library : Library) :
    ∀ diagnostic ∈ library.link.diagnostics, diagnostic.PointsInto library.location
      ((library.events.flatMap (·.follows.toList)).map (·.span)) := by
  intro diagnostic hdiagnostic
  rw [LinkedLibrary.diagnostics, (Diagnostic.stablySorted_inSourceOrder _).mem_iff, link,
    List.flatMap_map] at hdiagnostic
  obtain ⟨event, hevent, hdiagnostic⟩ := List.mem_flatMap.1 hdiagnostic
  cases hfollows : event.follows with
  | none => simp [linkFollows, hfollows] at hdiagnostic
  | some reference =>
    rw [linkFollows_of_follows hfollows, Option.toList_some, List.flatMap_singleton] at hdiagnostic
    apply pointsInto_of_mem_ofLink hdiagnostic
    apply List.mem_map_of_mem
    exact List.mem_flatMap.2 ⟨event, hevent, by simp [hfollows]⟩

/-! ## Checking a document -/

/-- The spans at which a document can be at fault. -/
def Document.faultSpans (document : Document) : List Span :=
  document.imports.map (·.span) ++ document.references.map (·.span)

theorem Document.faultSpans_subset_spans (document : Document) :
    document.faultSpans ⊆ document.spans :=
  fun _ hspan => List.mem_append_left _ (List.mem_append_left _ hspan)

/-- What is reported when a document that was read from a text is checked. -/
structure ReportedInOrder (source location : String) (document : Document)
    (diagnostics : List Diagnostic) : Prop where
  ordered : diagnostics.Pairwise fun diagnostic later =>
    diagnostic.span.start ≤ later.span.start
  points : ∀ diagnostic ∈ diagnostics, diagnostic.PointsInto location document.faultSpans
  inside : ∀ diagnostic ∈ diagnostics, diagnostic.span.start < diagnostic.span.stop ∧
    diagnostic.span.stop ≤ (LineIndex.ofText source).position source.utf8ByteSize

namespace Session

variable (session : Session) (files : FileSystem)

theorem pointsInto_of_mem_check (document : Document) :
    ∀ diagnostic ∈ (session.check files document).value,
      diagnostic.PointsInto document.location document.faultSpans := by
  have himports {imports : List ImportDeclaration} {location : String} {spans : List Span} :
      ∀ diagnostic ∈ (session.importScope files imports).value.failures.map
        (Diagnostic.ofFailedImport location),
        diagnostic.PointsInto location (imports.map (·.span) ++ spans) :=
    fun diagnostic hdiagnostic => (session.pointsInto_of_mem_failures files diagnostic
      hdiagnostic).mono (List.subset_append_left _ _)
  cases document with
  | platform content =>
    apply Diagnostic.forall_mem_inSourceOrder
    refine List.forall_mem_append.2 ⟨himports, fun diagnostic hdiagnostic => ?_⟩
    apply (Scope.pointsInto_of_mem_base _ _ diagnostic hdiagnostic).mono
    refine List.Subset.trans ?_ (List.subset_append_right _ _)
    exact List.map_subset _ (List.subset_append_left _ _)
  | library content =>
    refine List.forall_mem_append.2 ⟨Diagnostic.forall_mem_inSourceOrder himports,
      fun diagnostic hdiagnostic => ?_⟩
    exact (content.pointsInto_of_mem_link diagnostic hdiagnostic).mono
      (List.subset_append_right _ _)
  | execution content =>
    apply Diagnostic.forall_mem_inSourceOrder
    refine List.forall_mem_append.2 ⟨List.forall_mem_append.2 ⟨himports,
      fun diagnostic hdiagnostic => ?_⟩, fun diagnostic hdiagnostic => ?_⟩
    · apply (Scope.pointsInto_of_mem_providers _ _ diagnostic hdiagnostic).mono
      refine List.Subset.trans ?_ (List.subset_append_right _ _)
      exact List.map_subset _ (List.subset_append_left _ _)
    · apply (Scope.pointsInto_of_mem_rules _ _ diagnostic hdiagnostic).mono
      refine List.Subset.trans ?_ (List.subset_append_right _ _)
      exact List.map_subset _ (List.subset_append_right _ _)

theorem pairwise_check {document : Document} (himports : ∀ declaration ∈ document.imports,
      ∀ reference ∈ document.references, declaration.span.start ≤ reference.span.start) :
    (session.check files document).value.Pairwise fun diagnostic later =>
      diagnostic.span.start ≤ later.span.start := by
  cases document with
  | platform content => exact (Diagnostic.stablySorted_inSourceOrder _).ordered
  | execution content => exact (Diagnostic.stablySorted_inSourceOrder _).ordered
  | library content =>
    -- The two parts are sorted by themselves; between them the order is that of the text.
    refine List.pairwise_append.2 ⟨(Diagnostic.stablySorted_inSourceOrder _).ordered,
      (Diagnostic.stablySorted_inSourceOrder _).ordered, fun failure hfailure report hreport => ?_⟩
    have hfront := Diagnostic.forall_mem_inSourceOrder (session.pointsInto_of_mem_failures files)
      failure hfailure
    have hback := content.pointsInto_of_mem_link report hreport
    obtain ⟨declaration, hdeclaration, hspan⟩ := List.mem_map.1 hfront.span
    obtain ⟨reference, hreference, hspan'⟩ := List.mem_map.1 hback.span
    rw [← hspan, ← hspan']
    exact himports declaration hdeclaration reference hreference

/-- Checking a document that was read from a text reports its faults in the order of the text, in
any session. -/
theorem check_reportedInOrder {source location : String} {document : Document}
    (h : Document.parse source location = .ok document) :
    ReportedInOrder source location document (session.check files document).value := by
  have hspelled := Document.spelledBy_of_parse h
  have hordered := Lexeme.ordered_ofText source
  have hpoints := session.pointsInto_of_mem_check files document
  refine ⟨session.pairwise_check files ?_, ?_, ?_⟩
  · intro declaration hdeclaration reference hreference
    have hspan : declaration.span ∈ document.faultSpans :=
      List.mem_append_left _ (List.mem_map_of_mem hdeclaration)
    have hstart := (hspelled.inside (document.faultSpans_subset_spans hspan)).1
    have hbefore := hspelled.imports_before hordered declaration hdeclaration reference hreference
    exact le_trans (le_of_lt hstart) hbefore
  · rw [Document.location_of_parse h] at hpoints
    exact hpoints
  · intro diagnostic hdiagnostic
    have hspan := (hpoints diagnostic hdiagnostic).span
    exact hspelled.inside (document.faultSpans_subset_spans hspan)

/-- A library with an import that leads nowhere and an intent that follows an unknown one. -/
def faultyLibrary : String :=
  "import platform \"Gone\"\nlibrary L \x7b intent A follows B \x7d"

def faultyLibraryDocument : Document :=
  .library {
    name := ⟨"L", ⟨⟨1, 8⟩, ⟨1, 9⟩⟩⟩
    imports := [⟨.platform, "Gone", none, ⟨⟨0, 0⟩, ⟨0, 22⟩⟩⟩]
    events := [{
      name := ⟨"A", ⟨⟨1, 19⟩, ⟨1, 20⟩⟩⟩
      intent := some { follows := some ⟨"B", ⟨⟨1, 29⟩, ⟨1, 30⟩⟩⟩ } }]
    location := "a" }

theorem check_reportedInOrder_faultyLibrary :
    let diagnostics := ((start sampleSettings).check .empty faultyLibraryDocument).value
    Document.parse faultyLibrary "a" = .ok faultyLibraryDocument ∧
      diagnostics.map (·.span.start) = [⟨0, 0⟩, ⟨1, 29⟩] ∧
      ReportedInOrder faultyLibrary "a" faultyLibraryDocument diagnostics := by
  have h : Document.parse faultyLibrary "a" = .ok faultyLibraryDocument := by
    decide +kernel
  refine ⟨h, ?_, check_reportedInOrder (start sampleSettings) .empty h⟩
  decide +kernel

end Session

end CrossModel
