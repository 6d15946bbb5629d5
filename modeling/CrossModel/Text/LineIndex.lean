import CrossModel.Text.Position

/-!
# Line index

Only a line feed ends a line. A text is indexed by a table of the byte offsets at which its lines
start, and a byte offset is turned into a position by the last line start that does not lie behind
it. Offsets past the end of the text continue its last line. Offsets are taken as numbers without a
bound; 32 bits hold them as long as the text is under 4 GiB.
-/

namespace CrossModel

/-- Bytes that the characters take in UTF-8. -/
def utf8Length : List Char → Nat
  | [] => 0
  | c :: cs => c.utf8Size + utf8Length cs

@[simp]
theorem utf8Length_append (as bs : List Char) :
    utf8Length (as ++ bs) = utf8Length as + utf8Length bs := by
  induction as with
  | nil => simp [utf8Length]
  | cons a as ih => simp [utf8Length, ih, Nat.add_assoc]

/-- Where the lines of a text start. -/
structure LineIndex where
  starts : List Nat
  /-- The first line starts with the text, ... -/
  head : starts.head? = some 0
  /-- ... and each further line behind the one before it. -/
  increasing : starts.Pairwise (· < ·)
deriving DecidableEq, Repr

namespace LineIndex

/-- Offsets just after each line feed, for characters that stand at byte `offset`. -/
def startsFrom (offset : Nat) : List Char → List Nat
  | [] => []
  | c :: cs =>
    let next := offset + c.utf8Size
    if c = '\n' then next :: startsFrom next cs else startsFrom next cs

theorem lt_of_mem_startsFrom {offset start : Nat} {cs : List Char}
    (h : start ∈ startsFrom offset cs) : offset < start := by
  induction cs generalizing offset with
  | nil => cases h
  | cons c cs ih =>
    have hsize := c.utf8Size_pos
    rw [startsFrom] at h
    split at h
    · rcases List.mem_cons.1 h with rfl | h
      · omega
      · have hlt := ih h
        omega
    · have hlt := ih h
      omega

theorem pairwise_startsFrom (offset : Nat) (cs : List Char) :
    (startsFrom offset cs).Pairwise (· < ·) := by
  induction cs generalizing offset with
  | nil => exact .nil
  | cons c cs ih =>
    rw [startsFrom]
    split
    · exact .cons (fun _ => lt_of_mem_startsFrom) (ih _)
    · exact ih _

def ofText (text : String) : LineIndex where
  starts := 0 :: startsFrom 0 text.toList
  head := rfl
  increasing := .cons (fun _ => lt_of_mem_startsFrom) (pairwise_startsFrom 0 text.toList)

def lineCount (index : LineIndex) : Nat :=
  index.starts.length

/-- The place of an offset in the table, or the place at which it would be entered. -/
def search (index : LineIndex) (offset : Nat) : Except Nat Nat :=
  let place := (index.starts.takeWhile (· < offset)).length
  if index.starts[place]? = some offset then .ok place else .error place

/-- The position of a byte offset. -/
def position (index : LineIndex) (offset : Nat) : Position :=
  let line := match index.search offset with
    | .ok place => place
    | .error place => place - 1
  ⟨line, offset - index.starts.getD line 0⟩

/-- The span between two byte offsets. -/
def span (index : LineIndex) (start stop : Nat) : Span :=
  ⟨index.position start, index.position stop⟩

end LineIndex

end CrossModel
