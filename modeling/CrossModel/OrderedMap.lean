/-!
# Ordered maps

A map that lists its entries in the order in which their keys came in. Writing to a key that is
present keeps its place; a key that was dropped and comes back goes to the end. No key stands in a
map twice.
-/

namespace CrossModel

universe u v

structure OrderedMap (κ : Type u) (α : Type v) where
  entries : List (κ × α) := []
  nodup : (entries.map Prod.fst).Nodup := by simp
deriving DecidableEq, Repr

namespace OrderedMap

variable {κ : Type u} {α : Type v}

instance : Inhabited (OrderedMap κ α) := ⟨{}⟩

def empty : OrderedMap κ α := {}

def keys (map : OrderedMap κ α) : List κ :=
  map.entries.map Prod.fst

def size (map : OrderedMap κ α) : Nat :=
  map.entries.length

/-- The entries that fulfil a condition, in their old order. -/
def filter (keep : κ → α → Bool) (map : OrderedMap κ α) : OrderedMap κ α where
  entries := map.entries.filter fun entry => keep entry.1 entry.2
  nodup := map.nodup.sublist (List.filter_sublist.map Prod.fst)

/-- All values changed, at their old places. -/
def mapValues (change : α → α) (map : OrderedMap κ α) : OrderedMap κ α where
  entries := map.entries.map fun entry => (entry.1, change entry.2)
  nodup := by
    rw [List.map_map]
    exact map.nodup

theorem ext {a b : OrderedMap κ α} (h : a.entries = b.entries) : a = b := by
  cases a
  cases b
  cases h
  rfl

@[simp]
theorem keys_filter_key (keep : κ → Bool) (map : OrderedMap κ α) :
    (map.filter fun key _ => keep key).keys = map.keys.filter keep := by
  unfold keys filter
  rw [List.filter_map]
  rfl

theorem mem_keys_filter_key {keep : κ → Bool} {map : OrderedMap κ α} {key : κ} :
    key ∈ (map.filter fun key _ => keep key).keys ↔ key ∈ map.keys ∧ keep key = true := by
  rw [keys_filter_key, List.mem_filter]

theorem filter_key_eq_self {keep : κ → Bool} {map : OrderedMap κ α}
    (h : ∀ key ∈ map.keys, keep key = true) : (map.filter fun key _ => keep key) = map := by
  apply ext
  apply List.filter_eq_self.2
  intro entry hentry
  exact h entry.1 (List.mem_map_of_mem hentry)

/-! ## Look-ups and changes -/

variable [DecidableEq κ]

/-- The value of the first entry with this key. -/
def lookup (key : κ) : List (κ × α) → Option α
  | [] => none
  | (k, a) :: rest => if k = key then some a else lookup key rest

/-- The entries with the value at `key` replaced, or with a new entry at the end. -/
def write (key : κ) (value : α) : List (κ × α) → List (κ × α)
  | [] => [(key, value)]
  | (k, a) :: rest => if k = key then (key, value) :: rest else (k, a) :: write key value rest

theorem map_fst_write (key : κ) (value : α) (entries : List (κ × α)) :
    (write key value entries).map Prod.fst =
      if key ∈ entries.map Prod.fst then entries.map Prod.fst
      else entries.map Prod.fst ++ [key] := by
  induction entries with
  | nil => simp [write]
  | cons entry rest ih =>
    obtain ⟨k, a⟩ := entry
    by_cases hk : k = key
    · simp [write, hk]
    · have hne : key ≠ k := fun h => hk h.symm
      by_cases hmem : key ∈ rest.map Prod.fst
      · rw [if_pos hmem] at ih
        simp [write, hk, ih, List.mem_map.1 hmem]
      · rw [if_neg hmem] at ih
        have hnot : key ∉ ((k, a) :: rest).map Prod.fst := by
          simpa [hne] using hmem
        rw [if_neg hnot]
        simp [write, hk, ih]

theorem nodup_map_fst_write (key : κ) (value : α) {entries : List (κ × α)}
    (h : (entries.map Prod.fst).Nodup) : ((write key value entries).map Prod.fst).Nodup := by
  rw [map_fst_write]
  split
  · exact h
  · next hmem =>
    rw [List.nodup_append]
    refine ⟨h, by simp, ?_⟩
    intro a ha b hb hab
    rw [List.mem_singleton.1 hb] at hab
    exact hmem (hab ▸ ha)

def get? (map : OrderedMap κ α) (key : κ) : Option α :=
  lookup key map.entries

def insert (map : OrderedMap κ α) (key : κ) (value : α) : OrderedMap κ α where
  entries := write key value map.entries
  nodup := nodup_map_fst_write key value map.nodup

/-- A key that is present keeps its place, and a new one goes to the end. -/
theorem keys_insert (map : OrderedMap κ α) (key : κ) (value : α) :
    (map.insert key value).keys = if key ∈ map.keys then map.keys else map.keys ++ [key] :=
  map_fst_write key value map.entries

theorem lookup_write (key other : κ) (value : α) (entries : List (κ × α)) :
    lookup other (write key value entries) =
      if key = other then some value else lookup other entries := by
  induction entries with
  | nil => simp [write, lookup]
  | cons entry rest ih =>
    obtain ⟨k, a⟩ := entry
    by_cases hk : k = key
    · by_cases ho : key = other
      · simp [write, lookup, hk, ho]
      · simp [write, lookup, hk, ho]
    · by_cases ho : key = other
      · subst ho
        simp [write, lookup, hk, ih]
      · simp [write, lookup, hk, ho, ih]

theorem get?_insert (map : OrderedMap κ α) (key other : κ) (value : α) :
    (map.insert key value).get? other = if key = other then some value else map.get? other :=
  lookup_write key other value map.entries

/-! ## Entries and values -/

theorem isSome_lookup_iff (key : κ) (entries : List (κ × α)) :
    (lookup key entries).isSome ↔ key ∈ entries.map Prod.fst := by
  induction entries with
  | nil => simp [lookup]
  | cons entry rest ih =>
    obtain ⟨k, a⟩ := entry
    by_cases hk : k = key
    · simp [lookup, hk]
    · have hne : key ≠ k := fun h => hk h.symm
      simpa [lookup, hk, hne] using ih

theorem isSome_get?_iff (map : OrderedMap κ α) (key : κ) :
    (map.get? key).isSome ↔ key ∈ map.keys :=
  isSome_lookup_iff key map.entries

theorem mem_keys_of_get? {map : OrderedMap κ α} {key : κ} {value : α}
    (h : map.get? key = some value) : key ∈ map.keys := by
  rw [← isSome_get?_iff, h]
  rfl

theorem lookup_filter_key (keep : κ → Bool) (key : κ) (entries : List (κ × α)) :
    lookup key (entries.filter fun entry => keep entry.1) =
      if keep key then lookup key entries else none := by
  induction entries with
  | nil => simp [lookup]
  | cons entry rest ih =>
    obtain ⟨k, a⟩ := entry
    by_cases hk : k = key
    · subst hk
      cases hkeep : keep k with
      | true => simp [lookup, hkeep]
      | false => simpa [hkeep] using ih
    · cases hkeep : keep k with
      | true => simpa [lookup, hkeep, hk] using ih
      | false => simpa [lookup, hkeep, hk] using ih

theorem get?_filter_key (keep : κ → Bool) (map : OrderedMap κ α) (key : κ) :
    (map.filter fun key _ => keep key).get? key = if keep key then map.get? key else none :=
  lookup_filter_key keep key map.entries

theorem lookup_filter_value {keep : α → Bool} {key : κ} {entries : List (κ × α)}
    (h : (entries.map Prod.fst).Nodup) :
    lookup key (entries.filter fun entry => keep entry.2) = (lookup key entries).filter keep := by
  induction entries with
  | nil => rfl
  | cons entry rest ih =>
    obtain ⟨k, a⟩ := entry
    obtain ⟨hfresh, hrest⟩ := List.nodup_cons.1 h
    have ih := ih hrest
    by_cases hk : k = key
    · -- A key that goes with its value must not come back from an entry behind it.
      subst hk
      have hgone : lookup k rest = none := by
        rw [← Option.not_isSome_iff_eq_none, isSome_lookup_iff]
        exact hfresh
      cases hkeep : keep a with
      | true => simp [lookup, hkeep, Option.filter]
      | false => simpa [lookup, hkeep, hgone, Option.filter] using ih
    · cases hkeep : keep a with
      | true => simpa [lookup, hkeep, hk] using ih
      | false => simpa [lookup, hkeep, hk] using ih

theorem get?_filter_value (keep : α → Bool) (map : OrderedMap κ α) (key : κ) :
    (map.filter fun _ value => keep value).get? key = (map.get? key).filter keep :=
  lookup_filter_value map.nodup

theorem lookup_map_value (change : α → α) (key : κ) (entries : List (κ × α)) :
    lookup key (entries.map fun entry => (entry.1, change entry.2)) =
      (lookup key entries).map change := by
  induction entries with
  | nil => rfl
  | cons entry rest ih =>
    obtain ⟨k, a⟩ := entry
    by_cases hk : k = key
    · simp [lookup, hk]
    · simpa [lookup, hk] using ih

theorem get?_mapValues (change : α → α) (map : OrderedMap κ α) (key : κ) :
    (map.mapValues change).get? key = (map.get? key).map change :=
  lookup_map_value change key map.entries

theorem lookup_of_mem {entry : κ × α} {entries : List (κ × α)}
    (h : (entries.map Prod.fst).Nodup) (hmem : entry ∈ entries) :
    lookup entry.1 entries = some entry.2 := by
  induction entries with
  | nil => cases hmem
  | cons first rest ih =>
    obtain ⟨hfresh, hrest⟩ := List.nodup_cons.1 h
    rw [lookup]
    rcases List.mem_cons.1 hmem with rfl | hmem
    · rw [if_pos rfl]
    · have hne : first.1 ≠ entry.1 := by
        intro heq
        exact hfresh (heq ▸ List.mem_map_of_mem hmem)
      rw [if_neg hne, ih hrest hmem]

theorem mem_of_lookup {key : κ} {value : α} {entries : List (κ × α)}
    (h : lookup key entries = some value) : (key, value) ∈ entries := by
  induction entries with
  | nil => cases h
  | cons first rest ih =>
    rw [lookup] at h
    split at h
    · next heq =>
      cases h
      rw [← heq]
      exact List.mem_cons_self
    · exact List.mem_cons_of_mem first (ih h)

theorem mem_entries_iff (map : OrderedMap κ α) (key : κ) (value : α) :
    (key, value) ∈ map.entries ↔ map.get? key = some value :=
  ⟨lookup_of_mem map.nodup, mem_of_lookup⟩

/-- To count keys by what they lead to is to count entries by their values. -/
theorem countP_keys (accepts : α → Bool) (map : OrderedMap κ α) :
    map.keys.countP (fun key => (map.get? key).any accepts) =
      map.entries.countP fun entry => accepts entry.2 := by
  rw [keys, List.countP_map]
  apply List.countP_congr
  intro entry hentry
  rw [Function.comp_apply, get?, lookup_of_mem map.nodup hentry, Option.any_some]

end OrderedMap

end CrossModel
