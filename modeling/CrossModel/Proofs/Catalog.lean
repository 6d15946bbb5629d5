import CrossModel.Catalog

/-!
# Catalogs seen through look-ups and keys

A catalog is read in two ways: by looking a key up, and by listing the keys of one kind in the order
in which they came in. This module says what each change does to both views.
-/

namespace CrossModel

universe u

namespace Catalog

variable {κ : Type u}

/-- The keys of one kind, in the order in which they came in. -/
def keysOf (catalog : Catalog κ) : DefinitionKind → List κ
  | .platform => catalog.platforms.keys
  | .library => catalog.libraries.keys

/-- The definitions of one kind with their keys, in the order in which the keys came in. -/
def entriesOf (catalog : Catalog κ) : DefinitionKind → List (κ × Definition)
  | .platform => catalog.platforms.entries.map fun entry => (entry.1, .platform entry.2)
  | .library => catalog.libraries.entries.map fun entry => (entry.1, .library entry.2)

theorem map_fst_entriesOf (catalog : Catalog κ) (kind : DefinitionKind) :
    (catalog.entriesOf kind).map Prod.fst = catalog.keysOf kind := by
  cases kind with
  | platform => exact List.map_map
  | library => exact List.map_map

theorem keys_eq (catalog : Catalog κ) :
    catalog.keys = (catalog.keysOf .platform).map (.platform, ·) ++
      (catalog.keysOf .library).map (.library, ·) := rfl

theorem mem_keys_iff (catalog : Catalog κ) (kind : DefinitionKind) (key : κ) :
    (kind, key) ∈ catalog.keys ↔ key ∈ catalog.keysOf kind := by
  rw [keys_eq]
  cases kind <;> simp

@[simp]
theorem keysOf_retain (keep : κ → Bool) (catalog : Catalog κ) (kind : DefinitionKind) :
    (catalog.retain keep).2.keysOf kind = (catalog.keysOf kind).filter keep := by
  cases kind with
  | platform => exact OrderedMap.keys_filter_key keep catalog.platforms
  | library => exact OrderedMap.keys_filter_key keep catalog.libraries

/-- Nothing is dropped from a catalog whose keys are all kept. -/
theorem retain_eq_self {keep : κ → Bool} {catalog : Catalog κ}
    (h : ∀ kind, ∀ key ∈ catalog.keysOf kind, keep key = true) :
    (catalog.retain keep).2 = catalog := by
  have hplatforms := OrderedMap.filter_key_eq_self (h .platform)
  have hlibraries := OrderedMap.filter_key_eq_self (h .library)
  unfold retain
  rw [hplatforms, hlibraries]

theorem dropped_eq_nil {keep : κ → Bool} {catalog : Catalog κ}
    (h : ∀ kind, ∀ key ∈ catalog.keysOf kind, keep key = true) : catalog.dropped keep = [] := by
  apply List.filter_eq_nil_iff.2
  rintro ⟨kind, key⟩ hmem
  have hkeep := h kind key ((mem_keys_iff catalog kind key).1 hmem)
  simp [hkeep]

variable [DecidableEq κ]

@[simp]
theorem get?_empty (kind : DefinitionKind) (key : κ) :
    (empty : Catalog κ).get? kind key = none := by
  cases kind <;> rfl

theorem isSome_get?_iff (catalog : Catalog κ) (kind : DefinitionKind) (key : κ) :
    (catalog.get? kind key).isSome ↔ key ∈ catalog.keysOf kind := by
  cases kind with
  | platform =>
    rw [get?, Option.isSome_map]
    exact OrderedMap.isSome_get?_iff catalog.platforms key
  | library =>
    rw [get?, Option.isSome_map]
    exact OrderedMap.isSome_get?_iff catalog.libraries key

theorem kind_of_get? {catalog : Catalog κ} {kind : DefinitionKind} {key : κ}
    {definition : Definition} (h : catalog.get? kind key = some definition) :
    definition.kind = kind := by
  cases kind with
  | platform =>
    obtain ⟨shared, -, rfl⟩ := Option.map_eq_some_iff.1 h
    rfl
  | library =>
    obtain ⟨shared, -, rfl⟩ := Option.map_eq_some_iff.1 h
    rfl

theorem get?_of_mem_entriesOf {catalog : Catalog κ} {kind : DefinitionKind}
    {entry : κ × Definition} (h : entry ∈ catalog.entriesOf kind) :
    catalog.get? kind entry.1 = some entry.2 := by
  cases kind with
  | platform =>
    obtain ⟨⟨key, shared⟩, hmem, rfl⟩ := List.mem_map.1 h
    have hget := (catalog.platforms.mem_entries_iff key shared).1 hmem
    exact congrArg (Option.map Definition.platform) hget
  | library =>
    obtain ⟨⟨key, shared⟩, hmem, rfl⟩ := List.mem_map.1 h
    have hget := (catalog.libraries.mem_entries_iff key shared).1 hmem
    exact congrArg (Option.map Definition.library) hget

@[simp]
theorem insert_fst (catalog : Catalog κ) (key : κ) (definition : Definition) :
    (catalog.insert key definition).1 = catalog.get? definition.kind key := rfl

theorem get?_insert (catalog : Catalog κ) (key other : κ) (definition : Definition)
    (kind : DefinitionKind) :
    (catalog.insert key definition).2.get? kind other =
      if definition.kind = kind ∧ key = other then some definition
      else catalog.get? kind other := by
  cases definition with
  | platform shared =>
    cases kind with
    | platform =>
      simp only [insert, get?, OrderedMap.get?_insert, Definition.kind, true_and]
      split <;> rfl
    | library => simp [insert, get?, Definition.kind]
  | library shared =>
    cases kind with
    | platform => simp [insert, get?, Definition.kind]
    | library =>
      simp only [insert, get?, OrderedMap.get?_insert, Definition.kind, true_and]
      split <;> rfl

theorem keysOf_insert (catalog : Catalog κ) (key : κ) (definition : Definition)
    (kind : DefinitionKind) :
    (catalog.insert key definition).2.keysOf kind =
      if definition.kind = kind ∧ key ∉ catalog.keysOf kind then catalog.keysOf kind ++ [key]
      else catalog.keysOf kind := by
  cases definition with
  | platform shared =>
    cases kind with
    | platform =>
      simp only [insert, keysOf, OrderedMap.keys_insert, Definition.kind, true_and, ite_not]
    | library => simp [insert, keysOf, Definition.kind]
  | library shared =>
    cases kind with
    | platform => simp [insert, keysOf, Definition.kind]
    | library =>
      simp only [insert, keysOf, OrderedMap.keys_insert, Definition.kind, true_and, ite_not]

theorem get?_retain (keep : κ → Bool) (catalog : Catalog κ) (kind : DefinitionKind) (key : κ) :
    (catalog.retain keep).2.get? kind key = if keep key then catalog.get? kind key else none := by
  cases kind with
  | platform =>
    simp only [get?, retain, OrderedMap.get?_filter_key]
    split <;> rfl
  | library =>
    simp only [get?, retain, OrderedMap.get?_filter_key]
    split <;> rfl

/-- A definition takes the place of all of its kind and name, and of no other. -/
theorem get?_replaceNamed (catalog : Catalog κ) (definition : Definition) (kind : DefinitionKind)
    (key : κ) :
    (catalog.replaceNamed definition).2.get? kind key = (catalog.get? kind key).map fun old =>
      if old.kind = definition.kind ∧ old.name = definition.name then definition else old := by
  cases definition with
  | platform shared =>
    cases kind with
    | platform =>
      simp only [get?, replaceNamed, OrderedMap.get?_mapValues, Option.map_map]
      congr 1
      funext old
      simp only [Function.comp_apply, Definition.kind, Definition.name, true_and]
      split <;> rfl
    | library => simp [get?, replaceNamed, Function.comp_def, Definition.kind]
  | library shared =>
    cases kind with
    | platform => simp [get?, replaceNamed, Function.comp_def, Definition.kind]
    | library =>
      simp only [get?, replaceNamed, OrderedMap.get?_mapValues, Option.map_map]
      congr 1
      funext old
      simp only [Function.comp_apply, Definition.kind, Definition.name, true_and]
      split <;> rfl

omit [DecidableEq κ] in
/-- No key comes, goes or moves when definitions are replaced. -/
theorem keysOf_replaceNamed (catalog : Catalog κ) (definition : Definition)
    (kind : DefinitionKind) :
    (catalog.replaceNamed definition).2.keysOf kind = catalog.keysOf kind := by
  cases definition <;> cases kind <;>
    simp [keysOf, replaceNamed, OrderedMap.keys, OrderedMap.mapValues]

omit [DecidableEq κ] in
theorem keys_replaceNamed (catalog : Catalog κ) (definition : Definition) :
    (catalog.replaceNamed definition).2.keys = catalog.keys := by
  rw [keys_eq, keys_eq, keysOf_replaceNamed, keysOf_replaceNamed]

/-- The number of definitions that `replaceNamed` replaces, counted by their keys. -/
theorem countNamed_eq (catalog : Catalog κ) (definition : Definition) :
    catalog.countNamed definition = catalog.keys.countP fun entry =>
      (catalog.get? entry.1 entry.2).any fun old =>
        old.kind = definition.kind ∧ old.name = definition.name := by
  rw [keys, List.countP_append, List.countP_map, List.countP_map]
  cases definition with
  | platform shared =>
    have hplatforms := catalog.platforms.countP_keys fun old =>
      old.content.name.text = shared.content.name.text
    simp [countNamed, get?, Function.comp_def, Option.any_map, Definition.kind, Definition.name,
      ← hplatforms]
  | library shared =>
    have hlibraries := catalog.libraries.countP_keys fun old =>
      old.content.name.text = shared.content.name.text
    simp [countNamed, get?, Function.comp_def, Option.any_map, Definition.kind, Definition.name,
      ← hlibraries]

end Catalog

end CrossModel
