/-!
# Segments and blanks

Cutting a text at each occurrence of a separator character, and removal of the blanks at both of its
ends. There is always one segment more than there are separators, and blanks are the characters with
the Unicode property `White_Space`.
-/

namespace CrossModel

/-! ## Segments -/

/-- The stretches of a text between the separators, empty ones included. -/
def segmentsOf (separator : Char) (text : String) : List String :=
  (text.toList.splitOn separator).map String.ofList

theorem segmentsOf_ne_nil (separator : Char) (text : String) : segmentsOf separator text ≠ [] := by
  rw [segmentsOf, ne_eq, List.map_eq_nil_iff]
  exact List.splitOn_ne_nil separator text.toList

/-- A text is cut into stretches of its characters in which the separator is left out. -/
theorem mem_of_mem_splitOn {separator c : Char} {cs part : List Char}
    (h : part ∈ cs.splitOn separator) (hc : c ∈ part) : c ∈ cs ∧ c ≠ separator := by
  induction cs generalizing part with
  | nil =>
    rw [List.splitOn_nil, List.mem_singleton] at h
    rw [h] at hc
    cases hc
  | cons first cs ih =>
    have hrest : ∀ other ∈ cs.splitOn separator, c ∈ other → c ∈ first :: cs ∧ c ≠ separator := by
      intro other hother hmem
      exact ⟨List.mem_cons_of_mem first (ih hother hmem).1, (ih hother hmem).2⟩
    rw [List.splitOn_cons_eq_if_modifyHead] at h
    split at h
    · rcases List.mem_cons.1 h with rfl | h
      · cases hc
      · exact hrest part h hc
    · next hfirst =>
      cases hparts : cs.splitOn separator with
      | nil => exact absurd hparts (List.splitOn_ne_nil separator cs)
      | cons own others =>
        rw [hparts] at h hrest
        rcases List.mem_cons.1 h with rfl | h
        · rcases List.mem_cons.1 hc with rfl | hc
          · exact ⟨List.mem_cons_self, fun heq => hfirst (beq_iff_eq.2 heq)⟩
          · exact hrest own List.mem_cons_self hc
        · exact hrest part (List.mem_cons_of_mem own h) hc

theorem mem_of_mem_segmentsOf {separator c : Char} {text segment : String}
    (h : segment ∈ segmentsOf separator text) (hc : c ∈ segment.toList) :
    c ∈ text.toList ∧ c ≠ separator := by
  obtain ⟨part, hpart, rfl⟩ := List.mem_map.1 h
  rw [String.toList_ofList] at hc
  exact mem_of_mem_splitOn hpart hc

/-- No segment holds the separator. -/
theorem not_mem_of_mem_segmentsOf {separator : Char} {text segment : String}
    (h : segment ∈ segmentsOf separator text) : separator ∉ segment.toList :=
  fun hmem => (mem_of_mem_segmentsOf h hmem).2 rfl

/-! ## Blanks -/

/-- Whether a character has the Unicode property `White_Space`. -/
def isBlank (c : Char) : Bool :=
  let n := c.toNat
  (0x09 ≤ n && n ≤ 0x0d) || n == 0x20 || n == 0x85 || n == 0xa0 || n == 0x1680 ||
    (0x2000 ≤ n && n ≤ 0x200a) || n == 0x2028 || n == 0x2029 || n == 0x202f || n == 0x205f ||
    n == 0x3000

/-- The characters without the blanks at both ends. -/
def trimBlanks (cs : List Char) : List Char :=
  ((cs.dropWhile isBlank).reverse.dropWhile isBlank).reverse

/-- The text without the blanks at both ends. -/
def trimmed (text : String) : String :=
  String.ofList (trimBlanks text.toList)

end CrossModel
