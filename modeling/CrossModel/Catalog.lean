import CrossModel.Definition
import CrossModel.OrderedMap

/-!
# Catalogs

A catalog files definitions under keys, platforms and libraries apart. The import cache is a catalog
by path and alias, the alias table a catalog by alias. A change gives back what it has done together
with the catalog after it.
-/

namespace CrossModel

universe u

structure Catalog (κ : Type u) where
  platforms : OrderedMap κ (Shared Platform) := .empty
  libraries : OrderedMap κ (Shared Library) := .empty
deriving DecidableEq, Repr

/-- Definitions that were imported. -/
abbrev ImportCache := Catalog ImportKey

/-- Definitions that were registered under an alias. -/
abbrev AliasTable := Catalog String

namespace Catalog

variable {κ : Type u}

instance : Inhabited (Catalog κ) := ⟨{}⟩

def empty : Catalog κ := {}

def get? [DecidableEq κ] (catalog : Catalog κ) (kind : DefinitionKind) (key : κ) :
    Option Definition :=
  match kind with
  | .platform => (catalog.platforms.get? key).map .platform
  | .library => (catalog.libraries.get? key).map .library

/-- Files a definition under a key, among those of its kind, and gives the one that it replaces. -/
def insert [DecidableEq κ] (catalog : Catalog κ) (key : κ) (definition : Definition) :
    Option Definition × Catalog κ :=
  (catalog.get? definition.kind key,
    match definition with
    | .platform shared => { catalog with platforms := catalog.platforms.insert key shared }
    | .library shared => { catalog with libraries := catalog.libraries.insert key shared })

/-- The keys, those of platforms first. -/
def keys (catalog : Catalog κ) : List (DefinitionKind × κ) :=
  catalog.platforms.keys.map (.platform, ·) ++ catalog.libraries.keys.map (.library, ·)

/-- The keys that do not fulfil a condition. -/
def dropped (keep : κ → Bool) (catalog : Catalog κ) : List (DefinitionKind × κ) :=
  catalog.keys.filter fun (_, key) => !keep key

/-- Keeps the entries of both kinds whose key fulfils a condition, and gives the keys of those that
are dropped. -/
def retain (keep : κ → Bool) (catalog : Catalog κ) : List (DefinitionKind × κ) × Catalog κ :=
  (catalog.dropped keep,
    { platforms := catalog.platforms.filter fun key _ => keep key
      libraries := catalog.libraries.filter fun key _ => keep key })

/-- The number of entries with the kind and name of a definition. -/
def countNamed (catalog : Catalog κ) : Definition → Nat
  | .platform shared =>
    catalog.platforms.entries.countP (·.2.content.name.text = shared.content.name.text)
  | .library shared =>
    catalog.libraries.entries.countP (·.2.content.name.text = shared.content.name.text)

/-- Files a definition in place of all of its kind and name, and gives their number. -/
def replaceNamed (catalog : Catalog κ) (definition : Definition) : Nat × Catalog κ :=
  (catalog.countNamed definition,
    match definition with
    | .platform shared =>
      let swap (old : Shared Platform) :=
        if old.content.name.text = shared.content.name.text then shared else old
      { catalog with platforms := catalog.platforms.mapValues swap }
    | .library shared =>
      let swap (old : Shared Library) :=
        if old.content.name.text = shared.content.name.text then shared else old
      { catalog with libraries := catalog.libraries.mapValues swap })

def size (catalog : Catalog κ) : Nat :=
  catalog.platforms.size + catalog.libraries.size

def isEmpty (catalog : Catalog κ) : Bool :=
  catalog.size = 0

end Catalog

end CrossModel
