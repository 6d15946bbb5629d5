import CrossModel.Text.Segments

/-!
# Paths

A path is kept as it was written. It is compared component by component: repeated and trailing
slashes and dots in the middle do not count, while `..` is a component like any other.
-/

namespace CrossModel

structure Path where
  text : String
deriving DecidableEq, Repr, Inhabited

namespace Path

/-- A part of a path, in the order in which paths are sorted. -/
inductive Component where
  /-- The slash in front of an absolute path. -/
  | root
  /-- A dot at the front of a relative path. -/
  | current
  | parent
  | name (text : String)
deriving DecidableEq, Repr, Inhabited

namespace Component

def rank : Component → Nat
  | root => 0
  | current => 1
  | parent => 2
  | name _ => 3

def text : Component → String
  | root => "/"
  | current => "."
  | parent => ".."
  | name text => text

instance : Ord Component :=
  ⟨compareLex (compareOn rank) (compareOn text)⟩

/-- The component that a segment between slashes stands for. -/
def ofSegment? (segment : String) : Option Component :=
  if segment = "" || segment = "." then none
  else if segment = ".." then some parent
  else some (name segment)

end Component

def isAbsolute (path : Path) : Bool :=
  path.text.toList.head? = some '/'

def components (path : Path) : List Component :=
  match segmentsOf '/' path.text with
  | [] => []
  | first :: others =>
    (if path.isAbsolute then [.root]
      else if first = "." then [.current]
      else (Component.ofSegment? first).toList) ++
    others.filterMap Component.ofSegment?

/-- Whether two paths have the same components. -/
def same (a b : Path) : Bool :=
  a.components = b.components

/-- Whether the components of one path come before those of another, or are the same. -/
def sortsBefore (a b : Path) : Bool :=
  (compare a.components b.components).isLE

/-- A path below this one; an absolute path replaces it. -/
def join (base : Path) (below : String) : Path :=
  if below.toList.head? = some '/' then ⟨below⟩
  else if base.text = "" || base.text.toList.getLast? = some '/' then ⟨base.text ++ below⟩
  else ⟨base.text ++ "/" ++ below⟩

/-- The absolute path of a place that names lead to from the root. -/
def ofNames (names : List String) : Path :=
  ⟨"/" ++ "/".intercalate names⟩

/-- The last component, if it is a name. -/
def fileName? (path : Path) : Option String :=
  match path.components.getLast? with
  | some (.name text) => some text
  | _ => none

/-- What stands behind the last dot of the file name, if anything stands before that dot. -/
def extension? (path : Path) : Option String :=
  match path.fileName? with
  | none => none
  | some name =>
    match (segmentsOf '.' name).reverse with
    | [] | [_] | [_, ""] => none
    | last :: _ => some last

end Path

end CrossModel
