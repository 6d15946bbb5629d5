import CrossModel.Document.Parser

/-!
# Locations of documents

A document is read first and placed at its location afterwards. So a text is accepted or refused
wherever it is placed, and what is read from one text at two locations differs in the location
only.
-/

namespace CrossModel.Document

@[simp]
theorem location_relocate (document : Document) (location : String) :
    (document.relocate location).location = location := by
  cases document <;> rfl

@[simp]
theorem kind_relocate (document : Document) (location : String) :
    (document.relocate location).kind = document.kind := by
  cases document <;> rfl

@[simp]
theorem relocate_relocate (document : Document) (first second : String) :
    (document.relocate first).relocate second = document.relocate second := by
  cases document <;> rfl

theorem location_of_parse {source location : String} {document : Document}
    (h : parse source location = .ok document) : document.location = location := by
  unfold parse at h
  cases hread : ofLexemes (.ofText source) with
  | error error =>
    rw [hread] at h
    cases h
  | ok content =>
    rw [hread] at h
    cases h
    exact location_relocate content location

/-- Reading a text at another location moves what is read there. -/
theorem parse_relocate (source first second : String) :
    parse source second = (parse source first).map (relocate second) := by
  unfold parse
  cases ofLexemes (.ofText source) with
  | error error => rfl
  | ok content => simp [Except.map]

end CrossModel.Document
