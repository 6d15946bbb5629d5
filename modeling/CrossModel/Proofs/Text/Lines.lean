import CrossModel.Proofs.Text.Positions
import Mathlib.Data.List.Sort

/-!
# Lines and the bytes of a text

A line starts behind each byte that is a line feed. No other character has such a byte in its UTF-8
form, so the line starts that are found character by character are those of the bytes. The main
result is that positions and byte offsets correspond: the line of an offset counts the line feeds
before it, the column counts from the last of them, and both directions keep the order.
-/

namespace CrossModel

/-- The byte of a line feed. -/
def lineFeedByte : UInt8 := 10

/-- The offsets of the line feeds among the bytes before an offset. -/
def lineFeedsBefore (text : String) (offset : Nat) : List Nat :=
  (List.range offset).filter fun place => text.toUTF8.data[place]? = some lineFeedByte

/-- Where the line of an offset starts: behind the last line feed before it, or with the text. -/
def lineStartBefore (text : String) (offset : Nat) : Nat :=
  ((lineFeedsBefore text offset).map (· + 1)).getLastD 0

theorem mem_lineFeedsBefore {text : String} {offset place : Nat} :
    place ∈ lineFeedsBefore text offset ↔
      place < offset ∧ text.toUTF8.data[place]? = some lineFeedByte := by
  simp [lineFeedsBefore]

theorem pairwise_lineFeedsBefore (text : String) (offset : Nat) :
    (lineFeedsBefore text offset).Pairwise (· < ·) :=
  List.pairwise_lt_range.filter _

/-! ## Bytes of characters -/

theorem toList_data_toUTF8 (text : String) :
    text.toUTF8.data.toList = text.toList.flatMap String.utf8EncodeChar := by
  have htext : text.toUTF8 = text.toList.utf8Encode := by
    rw [String.toUTF8, ← String.toByteArray_ofList, String.ofList_toList]
  rw [htext, List.utf8Encode, List.data_toByteArray]

/-- The bytes of a character are its code, or they are beyond ASCII. -/
theorem toNat_of_mem_utf8EncodeChar {c : Char} {byte : UInt8}
    (h : byte ∈ String.utf8EncodeChar c) : byte.toNat = c.val.toNat ∨ 128 ≤ byte.toNat := by
  have hbyte {code : Nat} (hcode : code < 256) : (UInt8.ofNat code).toNat = code := by
    rw [UInt8.toNat_ofNat', Nat.mod_eq_of_lt hcode]
  unfold String.utf8EncodeChar at h
  dsimp only at h
  split at h
  · rw [List.mem_singleton.1 h]
    exact .inl (hbyte (by omega))
  · split at h
    · simp only [List.mem_cons, List.not_mem_nil, or_false] at h
      rcases h with rfl | rfl
      all_goals
        rw [hbyte (by omega)]
        omega
    · split at h
      · simp only [List.mem_cons, List.not_mem_nil, or_false] at h
        rcases h with rfl | rfl | rfl
        all_goals
          rw [hbyte (by omega)]
          omega
      · simp only [List.mem_cons, List.not_mem_nil, or_false] at h
        rcases h with rfl | rfl | rfl | rfl
        all_goals
          rw [hbyte (by omega)]
          omega

/-- No other character is written with the byte of a line feed. -/
theorem lineFeedByte_notMem_utf8EncodeChar {c : Char} (h : c ≠ '\n') :
    lineFeedByte ∉ String.utf8EncodeChar c := by
  intro hmem
  have hbyte : lineFeedByte.toNat = 10 := rfl
  rcases toNat_of_mem_utf8EncodeChar hmem with hcode | hbeyond
  · apply h
    rw [hbyte] at hcode
    exact Char.ext (UInt32.toNat_inj.1 hcode.symm)
  · omega

namespace LineIndex

/-! ## Line starts -/

theorem mem_startsFrom {offset start : Nat} {cs : List Char} :
    start ∈ startsFrom offset cs ↔ ∃ place,
      (cs.flatMap String.utf8EncodeChar)[place]? = some lineFeedByte ∧
        start = offset + place + 1 := by
  induction cs generalizing offset with
  | nil => simp [startsFrom]
  | cons c cs ih =>
    rw [startsFrom, List.flatMap_cons]
    by_cases hc : c = '\n'
    · -- The line feed is one byte, at place 0; all further places are shifted by one.
      subst hc
      have hbytes : String.utf8EncodeChar '\n' = [lineFeedByte] := by decide
      have hsize : '\n'.utf8Size = 1 := by decide
      rw [if_pos rfl, List.mem_cons, ih, hbytes, hsize]
      constructor
      · rintro (rfl | ⟨place, hplace, rfl⟩)
        · exact ⟨0, rfl, rfl⟩
        · exact ⟨place + 1, hplace, by omega⟩
      · rintro ⟨_ | place, hplace, rfl⟩
        · exact .inl rfl
        · exact .inr ⟨place, hplace, by omega⟩
    · have hnone := lineFeedByte_notMem_utf8EncodeChar hc
      have hlength := String.length_utf8EncodeChar c
      rw [if_neg hc, ih]
      constructor
      · rintro ⟨place, hplace, rfl⟩
        refine ⟨c.utf8Size + place, ?_, by omega⟩
        rw [List.getElem?_append_right (by omega), hlength, Nat.add_sub_cancel_left]
        exact hplace
      · rintro ⟨place, hplace, rfl⟩
        by_cases hinside : place < c.utf8Size
        · rw [List.getElem?_append_left (by omega)] at hplace
          exact absurd (List.mem_of_getElem? hplace) hnone
        · rw [List.getElem?_append_right (by omega), hlength] at hplace
          exact ⟨place - c.utf8Size, hplace, by omega⟩

/-- The line starts up to an offset stand behind the line feeds before it. -/
theorem filter_starts_le (text : String) (offset : Nat) :
    (ofText text).starts.filter (· ≤ offset) =
      0 :: (lineFeedsBefore text offset).map (· + 1) := by
  have hfeeds : (0 :: (lineFeedsBefore text offset).map (· + 1)).Pairwise (· < ·) := by
    rw [List.pairwise_cons, List.forall_mem_map]
    exact ⟨fun _ _ => Nat.succ_pos _,
      (pairwise_lineFeedsBefore text offset).map _ fun _ _ => Nat.succ_lt_succ⟩
  refine ((ofText text).increasing.filter _).eq_of_mem_iff hfeeds fun start => ?_
  rw [List.mem_filter, decide_eq_true_eq, ofText, List.mem_cons, List.mem_cons, List.mem_map,
    mem_startsFrom, ← toList_data_toUTF8]
  constructor
  · rintro ⟨rfl | ⟨place, hplace, rfl⟩, hle⟩
    · exact .inl rfl
    · rw [Array.getElem?_toList] at hplace
      exact .inr ⟨place, mem_lineFeedsBefore.2 ⟨by omega, hplace⟩, by omega⟩
  · rintro (rfl | ⟨place, hplace, rfl⟩)
    · exact ⟨.inl rfl, Nat.zero_le offset⟩
    · obtain ⟨hlt, hbyte⟩ := mem_lineFeedsBefore.1 hplace
      rw [← Array.getElem?_toList] at hbyte
      exact ⟨.inr ⟨place, hbyte, by omega⟩, hlt⟩

theorem InLine.take_starts {index : LineIndex} {offset line start : Nat}
    (h : index.InLine offset line start) :
    index.starts.take (line + 1) = index.starts.filter (· ≤ offset) := by
  have hbefore : (index.starts.take (line + 1)).filter (· ≤ offset) =
      index.starts.take (line + 1) := by
    rw [List.filter_eq_self]
    intro other hother
    obtain ⟨place, hplace, rfl⟩ := List.mem_take_iff_getElem.1 hother
    exact decide_eq_true ((h.le_iff (List.getElem?_eq_getElem _)).2 (by omega))
  have hbehind : (index.starts.drop (line + 1)).filter (· ≤ offset) = [] := by
    rw [List.filter_eq_nil_iff]
    intro other hother
    obtain ⟨place, hplace, rfl⟩ := List.mem_drop_iff_getElem.1 hother
    rw [decide_eq_true_eq, h.le_iff (List.getElem?_eq_getElem _)]
    omega
  conv_rhs => rw [← List.take_append_drop (line + 1) index.starts, List.filter_append, hbefore,
    hbehind, List.append_nil]

/-- An offset lies in the line that starts behind the last line feed before it, and the line feeds
before it count the lines before its own. -/
theorem InLine.eq_lineStartBefore {text : String} {offset line start : Nat}
    (h : (ofText text).InLine offset line start) :
    line = (lineFeedsBefore text offset).length ∧ start = lineStartBefore text offset := by
  have htable := h.take_starts
  rw [filter_starts_le] at htable
  obtain ⟨hline, hstart⟩ := List.getElem?_eq_some_iff.1 h.starts
  constructor
  · have hlength := congrArg List.length htable
    rw [List.length_take, List.length_cons, List.length_map] at hlength
    omega
  · have hlast := congrArg List.getLast? htable
    rw [List.getLast?_cons, ← List.getLastD_eq_getLast?, List.getLast?_take, if_neg (by omega),
      Nat.add_sub_cancel, h.starts, Option.some_or, Option.some.injEq] at hlast
    exact hlast

theorem inLine_position (text : String) (offset : Nat) :
    (ofText text).InLine offset ((ofText text).position offset).line
      (lineStartBefore text offset) := by
  obtain ⟨start, hstart⟩ := (ofText text).exists_inLine_position offset
  rwa [← hstart.eq_lineStartBefore.2]

theorem position_eq (text : String) (offset : Nat) :
    (ofText text).position offset =
      ⟨(lineFeedsBefore text offset).length, offset - lineStartBefore text offset⟩ := by
  have hinside := inLine_position text offset
  rw [← hinside.eq_lineStartBefore.1, ← hinside.column_eq]

/-! ## Offsets and positions in one order -/

theorem contains_span_iff (index : LineIndex) (start stop offset : Nat) :
    (index.span start stop).contains (index.position offset) = true ↔
      start ≤ offset ∧ offset ≤ stop := by
  rw [Span.contains, decide_eq_true_eq, span, index.strictMono_position.le_iff_le,
    index.strictMono_position.le_iff_le]

/-- How the positions of an index belong to the byte offsets of a text. -/
structure Follows (index : LineIndex) (text : String) : Prop where
  /-- The table of line starts begins with 0 and increases, ... -/
  head : index.starts.head? = some 0
  increasing : index.starts.Pairwise (· < ·)
  /-- ... and an offset lies between two neighbours in it. -/
  found : ∀ offset,
    index.InLine offset (index.position offset).line (lineStartBefore text offset)
  position : ∀ offset, index.position offset =
    ⟨(lineFeedsBefore text offset).length, offset - lineStartBefore text offset⟩
  lt_iff : ∀ p q, p < q ↔ index.position p < index.position q
  contains_iff : ∀ start stop offset,
    (index.span start stop).contains (index.position offset) = true ↔
      start ≤ offset ∧ offset ≤ stop

/-- Positions are byte offsets in another form: they count the line feeds before an offset and the
bytes behind the last of them, and they keep the order of the offsets. -/
theorem positions_follow_offsets (text : String) : (ofText text).Follows text where
  head := (ofText text).head
  increasing := (ofText text).increasing
  found := inLine_position text
  position := position_eq text
  lt_iff _ _ := ((ofText text).strictMono_position.lt_iff_lt).symm
  contains_iff := contains_span_iff _

end LineIndex

end CrossModel
