import CrossModel.Text.LineIndex
import Mathlib.Order.Lattice
import Mathlib.Order.Monotone.Basic

/-!
# Positions in the order of the text

Positions are ordered by line and then by column. The search in the table of line starts finds the
line in which an offset lies, between two neighbours of the table. So byte offsets that come later
in a text have later positions, whatever the lines of the text are, and spans can be compared
instead of offsets.
-/

namespace CrossModel

/-! ## The order of positions -/

namespace Position

instance : LinearOrder Position where
  le_refl _ := .inr ⟨rfl, Nat.le_refl _⟩
  le_trans p q r hpq hqr := by
    rw [le_def] at *
    omega
  le_antisymm p q hpq hqp := by
    rw [le_def] at hpq hqp
    have hline : p.line = q.line := by omega
    have hcolumn : p.column = q.column := by omega
    cases p
    cases q
    rw [mk.injEq]
    exact ⟨hline, hcolumn⟩
  lt_iff_le_not_ge p q := by
    rw [lt_def, le_def, le_def]
    omega
  le_total p q := by
    rw [le_def, le_def]
    omega
  toDecidableLE := inferInstance
  toDecidableEq := inferInstance
  toDecidableLT := inferInstance

end Position

namespace LineIndex

/-! ## The line of an offset -/

/-- An offset lies in a line: not before its start, and before the start of the next one. -/
structure InLine (index : LineIndex) (offset line start : Nat) : Prop where
  starts : index.starts[line]? = some start
  start_le : start ≤ offset
  lt_next : ∀ next, index.starts[line + 1]? = some next → offset < next

variable {index : LineIndex} {offset line start : Nat}

theorem getElem?_starts_lt {earlier later first second : Nat} (h : earlier < later)
    (hfirst : index.starts[earlier]? = some first)
    (hsecond : index.starts[later]? = some second) : first < second := by
  obtain ⟨hearlier, rfl⟩ := List.getElem?_eq_some_iff.1 hfirst
  obtain ⟨hlater, rfl⟩ := List.getElem?_eq_some_iff.1 hsecond
  exact List.pairwise_iff_getElem.1 index.increasing _ _ hearlier hlater h

/-- All starts before the place that the search finds lie before the offset, ... -/
theorem lt_of_getElem?_takeWhile {place : Nat}
    (hplace : place < (index.starts.takeWhile (· < offset)).length)
    (h : index.starts[place]? = some start) : start < offset := by
  rw [← List.takeWhile_append_dropWhile (p := (· < offset)) (l := index.starts),
    List.getElem?_append_left hplace] at h
  have hall := List.all_eq_true.1 (List.all_takeWhile (p := (· < offset)) (l := index.starts))
  exact of_decide_eq_true (hall start (List.mem_of_getElem? h))

/-- ... and the start at this place does not. -/
theorem le_of_getElem?_takeWhile
    (h : index.starts[(index.starts.takeWhile (· < offset)).length]? = some start) :
    offset ≤ start := by
  have hnext : (index.starts.takeWhile (· < offset) ++
      index.starts.dropWhile (· < offset))[(index.starts.takeWhile (· < offset)).length]? =
        some start := by
    rwa [List.takeWhile_append_dropWhile]
  rw [List.getElem?_append_right (Nat.le_refl _), Nat.sub_self, ← List.head?_eq_getElem?] at hnext
  have hstop := List.head?_dropWhile_not (· < offset) index.starts
  rw [hnext] at hstop
  simpa using hstop

/-- The search leads to the line in which an offset lies. -/
theorem exists_inLine_position (index : LineIndex) (offset : Nat) :
    ∃ start, index.InLine offset (index.position offset).line start := by
  have hplace : (index.starts.takeWhile (· < offset)).length ≤ index.starts.length :=
    (List.takeWhile_prefix _).length_le
  unfold position search
  by_cases hfound : index.starts[(index.starts.takeWhile (· < offset)).length]? = some offset
  · rw [if_pos hfound]
    exact ⟨offset, hfound, Nat.le_refl _, fun _ => getElem?_starts_lt (Nat.lt_succ_self _) hfound⟩
  · rw [if_neg hfound]
    cases hlength : (index.starts.takeWhile (· < offset)).length with
    | zero =>
      -- Only the offset 0 has no start before it, and it is in the table itself.
      have hhead : index.starts[(index.starts.takeWhile (· < offset)).length]? = some 0 := by
        rw [hlength, ← List.head?_eq_getElem?]
        exact index.head
      have hzero := Nat.le_zero.1 (le_of_getElem?_takeWhile hhead)
      rw [hhead, hzero] at hfound
      exact absurd rfl hfound
    | succ before =>
      have hbefore : before < (index.starts.takeWhile (· < offset)).length := by omega
      have hstart := List.getElem?_eq_getElem (Nat.lt_of_lt_of_le hbefore hplace)
      refine ⟨_, hstart, Nat.le_of_lt (lt_of_getElem?_takeWhile hbefore hstart), ?_⟩
      intro next hnext
      have hnext : index.starts[before + 1]? = some next := hnext
      rw [← hlength] at hnext
      apply Nat.lt_of_le_of_ne (le_of_getElem?_takeWhile hnext)
      rintro rfl
      exact hfound hnext

/-- The starts up to an offset are those of its line and of the lines before it. -/
theorem InLine.le_iff (h : index.InLine offset line start) {place other : Nat}
    (hother : index.starts[place]? = some other) : other ≤ offset ↔ place ≤ line := by
  have hstart := h.start_le
  constructor
  · intro hle
    by_contra hbehind
    obtain ⟨hlength, -⟩ := List.getElem?_eq_some_iff.1 hother
    have hnext := List.getElem?_eq_getElem (l := index.starts) (i := line + 1) (by omega)
    have hlt := h.lt_next _ hnext
    rcases Nat.lt_or_eq_of_le (Nat.not_le.1 hbehind) with hlater | hsame
    · have hstarts := getElem?_starts_lt hlater hnext hother
      omega
    · rw [← hsame, hnext, Option.some.injEq] at hother
      omega
  · intro hplace
    rcases Nat.lt_or_eq_of_le hplace with hearlier | rfl
    · have hstarts := getElem?_starts_lt hearlier hother h.starts
      omega
    · rw [h.starts, Option.some.injEq] at hother
      omega

theorem InLine.line_le {p q later other : Nat} (hp : index.InLine p line start)
    (hq : index.InLine q later other) (h : p ≤ q) : line ≤ later :=
  (hq.le_iff hp.starts).1 (Nat.le_trans hp.start_le h)

theorem InLine.column_eq (h : index.InLine offset (index.position offset).line start) :
    (index.position offset).column = offset - start := by
  have hstart : index.starts.getD (index.position offset).line 0 = start := by
    rw [List.getD_eq_getElem?_getD, h.starts, Option.getD_some]
  rw [← hstart]
  rfl

/-! ## Positions of offsets -/

/-- A later offset has a later position. -/
theorem strictMono_position (index : LineIndex) : StrictMono index.position := by
  intro p q h
  obtain ⟨start, hp⟩ := index.exists_inLine_position p
  obtain ⟨other, hq⟩ := index.exists_inLine_position q
  have hstart := hp.start_le
  rw [Position.lt_def, hp.column_eq, hq.column_eq]
  rcases Nat.lt_or_eq_of_le (hp.line_le hq (Nat.le_of_lt h)) with hline | hline
  · exact .inl hline
  · -- On one line, both columns count from the same line start.
    have hsame : start = other := by
      rw [← Option.some.injEq, ← hp.starts, ← hq.starts, hline]
    refine .inr ⟨hline, ?_⟩
    omega

end LineIndex

end CrossModel
