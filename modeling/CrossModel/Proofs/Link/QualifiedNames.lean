import CrossModel.Link.Scope
import CrossModel.Proofs.Document.Parts
import CrossModel.Proofs.Files.Canonical
import CrossModel.Proofs.Token.Spacing
import Mathlib.Data.List.DropRight
import Mathlib.Data.List.Induction

/-!
# References behind a name

A reference to a provider starts with the name or the alias of a platform. Whatever stands behind
the dot is read in the same way behind every name that has no dot in it and does not start with a
blank. The names of all documents that were read from a text are such names.
-/

namespace CrossModel

/-- A name that can stand in front of the dot of a reference. -/
structure Qualifies (name : String) : Prop where
  ne_empty : name ≠ ""
  no_dot : '.' ∉ name.toList
  starts : ∀ c ∈ name.toList.head?, isBlank c = false

/-! ## Splitting at the dot -/

theorem rdropWhile_append_cons {α : Type} {drops : α → Bool} {item : α} (hitem : drops item = false)
    (before behind : List α) :
    (before ++ item :: behind).rdropWhile drops = before ++ item :: behind.rdropWhile drops := by
  induction behind using List.reverseRecOn with
  | nil => simp [hitem]
  | append_singleton behind last ih =>
    rw [← List.cons_append, ← List.append_assoc, List.rdropWhile_concat, List.rdropWhile_concat, ih]
    split <;> simp

theorem Qualifies.trimBlanks_append {name : String} (h : Qualifies name) (behind : List Char) :
    trimBlanks (name.toList ++ '.' :: behind) =
      name.toList ++ '.' :: behind.rdropWhile isBlank := by
  have hfront : (name.toList ++ '.' :: behind).dropWhile isBlank =
      name.toList ++ '.' :: behind := by
    cases hchars : name.toList with
    | nil => exact absurd (String.toList_eq_nil_iff.1 hchars) h.ne_empty
    | cons c cs =>
      have hstart := h.starts c (by rw [hchars]; rfl)
      rw [List.cons_append, List.dropWhile_cons_of_neg (by simp [hstart])]
  have hback := rdropWhile_append_cons (show isBlank '.' = false by decide) name.toList behind
  rw [trimBlanks, hfront]
  exact hback

namespace QualifiedName

/-- The name of the provider in what stands behind the dot of a reference. -/
def providerPart? (behind : String) : Option String :=
  match (behind.toList.rdropWhile isBlank).splitOn '.' with
  | [part] => if part = [] then none else some (String.ofList part)
  | _ => none

/-- Behind each name the rest of a reference is read in the same way. -/
theorem parse?_append {name : String} (h : Qualifies name) (behind : String) :
    parse? (name ++ "." ++ behind) = (providerPart? behind).map (QualifiedName.mk name) := by
  have hsegments : segmentsOf '.' (trimmed (name ++ "." ++ behind)) =
      name :: ((behind.toList.rdropWhile isBlank).splitOn '.').map String.ofList := by
    have hchars : (name ++ "." ++ behind).toList = name.toList ++ '.' :: behind.toList := by
      simp
    rw [segmentsOf, trimmed, hchars, h.trimBlanks_append, String.toList_ofList,
      List.splitOn_append_cons_self_of_not_mem h.no_dot, List.map_cons, String.ofList_toList]
  unfold parse? providerPart?
  rw [hsegments]
  cases (behind.toList.rdropWhile isBlank).splitOn '.' with
  | nil => rfl
  | cons part others =>
    cases others with
    | nil => by_cases hpart : part = [] <;> simp [hpart, h.ne_empty]
    | cons second others => rfl

end QualifiedName

namespace Scope

/-- What a reference behind a name leads to; nothing if the reference is malformed. -/
theorem provider_append (scope : Scope) {name : String} (h : Qualifies name) (behind : String) :
    (scope.provider (name ++ "." ++ behind)).toOption =
      (QualifiedName.providerPart? behind).map fun part => scope.providerNamed? ⟨name, part⟩ := by
  unfold provider QualifiedName.parse
  rw [QualifiedName.parse?_append h]
  cases QualifiedName.providerPart? behind <;> rfl

end Scope

/-! ## Names of documents -/

theorem isBlank_of_isWordStart {c : Char} (h : Token.isWordStart c = true) :
    isBlank c = false := by
  have hbounds : 65 ≤ c.toNat ∧ c.toNat ≤ 122 := by
    simp only [Token.isWordStart, Bool.or_eq_true, decide_eq_true_eq, Char.le_def,
      UInt32.le_iff_toNat_le, beq_iff_eq] at h
    have hletters : ('a'.val.toNat = 97 ∧ 'z'.val.toNat = 122) ∧
        'A'.val.toNat = 65 ∧ 'Z'.val.toNat = 90 := by decide
    have htoNat : c.toNat = c.val.toNat := rfl
    rcases h with (h | h) | rfl
    · omega
    · omega
    · decide
  simp only [isBlank, Bool.or_eq_false_iff, Bool.and_eq_false_iff, decide_eq_false_iff_not,
    beq_eq_false_iff_ne]
  omega

/-- Identifiers can stand in front of a dot. -/
theorem qualifies_of_lexes {text : String} (h : Token.Lexes .ident text.toList) :
    Qualifies text := by
  generalize hkind : TokenKind.ident = kind at h
  generalize hchars : text.toList = chars at h
  cases h with
  | word hc hcs =>
    have hdot : Token.isWordChar '.' = false := by
      decide
    refine ⟨?_, ?_, ?_⟩
    · rintro rfl
      cases hchars
    · rw [hchars, List.mem_cons, not_or]
      constructor
      · rintro rfl
        revert hc
        decide
      · intro hmem
        rw [hcs '.' hmem] at hdot
        cases hdot
    · intro c hfirst
      rw [hchars] at hfirst
      cases hfirst
      exact isBlank_of_isWordStart hc
  | integer => cases hkind
  | string => cases hkind
  | symbol mark => cases hkind

/-- The name of a platform is an identifier. -/
theorem Platform.qualifies_name {source location : String} {platform : Platform}
    (h : Document.parse source location = .ok (.platform platform)) :
    Qualifies platform.name.text := by
  obtain ⟨imports, body, hused, -, -, hbody⟩ := (Document.spelledBy_of_parse h).parts
  obtain ⟨part, hpart, lexeme, hkind, rfl, hname⟩ := Platform.SpelledBy.name hbody
  have hmem : lexeme ∈ Lexeme.ofText source := by
    rw [hused]
    exact List.mem_append_right imports (hpart.subset List.mem_cons_self)
  obtain ⟨token, htoken, rfl⟩ := List.mem_map.1 hmem
  have hkind : token.kind = .ident := hkind
  have hlexes := Token.lexes_of_mem_significant htoken (by rw [hkind]; nofun)
  rw [hkind] at hlexes
  rw [hname]
  exact qualifies_of_lexes hlexes

end CrossModel
