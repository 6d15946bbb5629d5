import CrossModel.Document.Import
import CrossModel.Files.Path
import CrossModel.OrderedMap

/-!
# Alias locations

An import with an alias is located at its alias instead of its file. The indirections say which file
an alias location stands for.
-/

namespace CrossModel

/-- The location of what is imported under an alias. -/
def DefinitionKind.aliasLocation (kind : DefinitionKind) (name : String) : String :=
  match kind with
  | .platform => "custom://platforms/" ++ name ++ ".platform"
  | .library => "custom://libraries/" ++ name ++ ".intent"

structure Indirections where
  targets : OrderedMap String Path := .empty
deriving DecidableEq, Repr, Inhabited

namespace Indirections

def empty : Indirections := {}

/-- The file that a location stands for. -/
def target? (indirections : Indirections) (location : String) : Option Path :=
  indirections.targets.get? location

def size (indirections : Indirections) : Nat :=
  indirections.targets.size

/-- Lets a location stand for a file from now on, and gives the one that it stood for before. -/
def bind (indirections : Indirections) (location : String) (target : Path) :
    Option Path × Indirections :=
  (indirections.target? location, ⟨indirections.targets.insert location target⟩)

/-- Forgets all locations that stand for a file, and gives their number. -/
def retire (indirections : Indirections) (target : Path) : Nat × Indirections :=
  let kept := indirections.targets.filter fun _ other => !other.same target
  (indirections.size - kept.size, ⟨kept⟩)

end Indirections

end CrossModel
