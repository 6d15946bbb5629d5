import CrossModel.Link.Diagnostic
import CrossModel.Proofs.Text.Positions

/-!
# Reports

What is reported for each of the three faults that linking can find, written out, and what it means
that reports are in source order. Links report exactly the references that they leave unresolved.
-/

namespace CrossModel

universe u

/-! ## Links -/

namespace Link

variable {α : Type u}

theorem ofOption_eq_resolved {reference : Reference} {found : Option α} {target : α} :
    ofOption reference found = resolved target ↔ found = some target := by
  cases found <;> simp [ofOption]

theorem ofOption_eq_unresolved {reference other : Reference} {found : Option α} :
    ofOption reference found = unresolved other ↔ found = none ∧ other = reference := by
  cases found <;> simp [ofOption, eq_comm]

theorem only?_eq_some {candidates : List α} {target : α} :
    only? candidates = some target ↔ candidates = [target] := by
  cases candidates with
  | nil => simp [only?]
  | cons first others => cases others <;> simp [only?]

/-- A relation that is kept at both ends takes the only candidate. -/
theorem establish_of_bidirectional {relation : Relation} (h : relation.isBidirectional = true)
    (reference : Reference) (candidates : Reference → List α) :
    establish relation reference candidates =
      ofOption reference (only? (candidates reference)) := by
  simp [establish, create, h]

/-- Any other relation takes the first candidate. -/
theorem establish_of_not_bidirectional {relation : Relation}
    (h : relation.isBidirectional = false) (reference : Reference)
    (candidates : Reference → List α) :
    establish relation reference candidates =
      ofOption reference (candidates reference).head? := by
  simp [establish, create, h, orElse]

end Link

namespace Diagnostic

/-! ## The three faults -/

/-- A reference leads to nothing. -/
def undefinedReference (location : String) (reference : Reference) : Diagnostic where
  location
  span := reference.span
  severity := .error
  code := some "E0001"
  message := "undefined reference: '" ++ reference.text ++ "'"
  data := some reference.text

/-- A transition leads to no state of its model. -/
def missingState (location : String) (reference : Reference) : Diagnostic where
  location
  span := reference.span
  severity := .error
  code := some "E0015"
  message := reference.text ++ " cannot be resolved to a State"
  data := some reference.text

/-- An import gives no definition. -/
def invalidImport (location : String) (declaration : ImportDeclaration) (error : ResolveError) :
    Diagnostic where
  location
  span := declaration.span
  severity := .error
  code := some "E0014"
  message := error.message
  data := some declaration.path

/-- Whether a reference is at fault, and not an import. -/
def concernsReference (diagnostic : Diagnostic) : Bool :=
  diagnostic.code = some "E0001" || diagnostic.code = some "E0015"

@[simp] theorem concernsReference_undefinedReference (location : String) (reference : Reference) :
    (undefinedReference location reference).concernsReference = true := by
  simp [concernsReference, undefinedReference]

@[simp] theorem concernsReference_missingState (location : String) (reference : Reference) :
    (missingState location reference).concernsReference = true := by
  simp [concernsReference, missingState]

@[simp] theorem concernsReference_invalidImport (location : String)
    (declaration : ImportDeclaration) (error : ResolveError) :
    (invalidImport location declaration error).concernsReference = false := by
  simp [concernsReference, invalidImport]

theorem ofLink_transitionState {α : Type} (location : String) (link : Link α) :
    ofLink location .transitionState link =
      link.unresolved?.toList.map (missingState location) := by
  cases link <;> rfl

theorem ofLink_of_ne {α : Type} {relation : Relation} (h : relation ≠ .transitionState)
    (location : String) (link : Link α) :
    ofLink location relation link =
      link.unresolved?.toList.map (undefinedReference location) := by
  cases link with
  | resolved target => rfl
  | unresolved reference =>
    cases relation with
    | transitionState => exact absurd rfl h
    | _ => rfl

/-! ## Source order -/

/-- The diagnostics stand in the order of the starts of their spans, and those with one start stand
as they do in the other list. -/
structure StablySorted (diagnostics sorted : List Diagnostic) : Prop where
  ordered : sorted.Pairwise fun a b => a.span.start ≤ b.span.start
  stable : ∀ position, sorted.filter (·.span.start = position) =
    diagnostics.filter (·.span.start = position)

/-- Sorting neither loses nor invents a diagnostic. -/
theorem StablySorted.mem_iff {diagnostics sorted : List Diagnostic}
    (h : StablySorted diagnostics sorted) {diagnostic : Diagnostic} :
    diagnostic ∈ sorted ↔ diagnostic ∈ diagnostics := by
  have hmem (list : List Diagnostic) : diagnostic ∈ list ↔
      diagnostic ∈ list.filter (·.span.start = diagnostic.span.start) := by
    simp
  rw [hmem sorted, hmem diagnostics, h.stable]

theorem stablySorted_inSourceOrder (diagnostics : List Diagnostic) :
    StablySorted diagnostics (inSourceOrder diagnostics) := by
  have htrans (a b c : Diagnostic) :
      decide (a.span.start ≤ b.span.start) = true → decide (b.span.start ≤ c.span.start) = true →
        decide (a.span.start ≤ c.span.start) = true := by
    simp only [decide_eq_true_eq]
    exact le_trans
  have htotal (a b : Diagnostic) :
      (decide (a.span.start ≤ b.span.start) || decide (b.span.start ≤ a.span.start)) = true := by
    simpa using le_total a.span.start b.span.start
  constructor
  · have hsorted := List.pairwise_mergeSort htrans htotal diagnostics
    exact hsorted.imp fun hle => of_decide_eq_true hle
  · intro position
    -- Diagnostics with one start are in order among themselves, so the sort keeps them as they are.
    have hequal : (diagnostics.filter (·.span.start = position)).Pairwise fun a b =>
        decide (a.span.start ≤ b.span.start) = true := by
      rw [List.pairwise_filter]
      apply List.pairwise_of_forall
      intro a b ha hb
      rw [decide_eq_true_eq] at ha hb
      rw [ha, hb, decide_eq_true_eq]
    have hkept := (List.sublist_mergeSort htrans htotal hequal List.filter_sublist).filter
      (·.span.start = position)
    simp only [List.filter_filter, Bool.and_self] at hkept
    have hperm := (List.mergeSort_perm diagnostics fun a b =>
      decide (a.span.start ≤ b.span.start)).filter (·.span.start = position)
    exact (hkept.eq_of_length hperm.length_eq.symm).symm

end Diagnostic

end CrossModel
