import CrossModel.Proofs.Catalog
import CrossModel.Proofs.Since
import Mathlib.Data.List.Nodup
import Mathlib.Data.Prod.Basic

/-!
# Catalogs and their history

A catalog is changed by filing a definition, by keeping some keys only, by putting a definition in
place of all of its kind and name, and by clearing it. What it holds after any sequence of changes
is said here by the sequence alone: `Holds` finds the definition of an entry, and `CameIn` the
moment at which the entry came in, which decides its place among the keys.
-/

namespace CrossModel.Catalog

universe u

variable {κ : Type u}

/-! ## Changes -/

inductive Change (κ : Type u) where
  | insert (key : κ) (definition : Definition)
  | retain (keep : κ → Bool)
  | replaceNamed (definition : Definition)
  | clear

/-- What a change gives back. -/
inductive Answer (κ : Type u) where
  /-- The definition in whose place another one was filed. -/
  | replaced (old : Option Definition)
  | dropped (keys : List (DefinitionKind × κ))
  /-- How many definitions have made room for another one. -/
  | counted (number : Nat)
  | done

namespace Change

/-- The key under which a change files a definition of this kind. -/
def filed? (kind : DefinitionKind) : Change κ → Option κ
  | insert key definition => if definition.kind = kind then some key else none
  | _ => none

/-- Whether a change drops what is filed under a key, of whichever kind it is. -/
def drops (key : κ) : Change κ → Bool
  | retain keep => !keep key
  | clear => true
  | _ => false

/-- The definition that a change puts in place of all of this kind and name. -/
def replacement? (kind : DefinitionKind) (name : String) : Change κ → Option Definition
  | replaceNamed definition =>
    if definition.kind = kind ∧ definition.name = name then some definition else none
  | _ => none

theorem eq_insert_of_filed? {change : Change κ} {kind : DefinitionKind} {key : κ}
    (h : change.filed? kind = some key) :
    ∃ definition : Definition, definition.kind = kind ∧ change = insert key definition := by
  cases change with
  | insert other definition =>
    rw [filed?, Option.ite_none_right_eq_some, Option.some.injEq] at h
    exact ⟨definition, h.1, by rw [h.2]⟩
  | _ => cases h

theorem drops_of_filed? {change : Change κ} {kind : DefinitionKind} {filed : κ}
    (h : change.filed? kind = some filed) (key : κ) : change.drops key = false := by
  obtain ⟨definition, -, rfl⟩ := eq_insert_of_filed? h
  rfl

theorem same_of_replacement? {change : Change κ} {kind : DefinitionKind} {name : String}
    {definition : Definition} (h : change.replacement? kind name = some definition) :
    definition.kind = kind ∧ definition.name = name := by
  cases change with
  | replaceNamed other =>
    rw [replacement?, Option.ite_none_right_eq_some, Option.some.injEq] at h
    rw [← h.2]
    exact h.1
  | _ => cases h

end Change

section Run

variable [DecidableEq κ]

def change (catalog : Catalog κ) : Change κ → Catalog κ
  | .insert key definition => (catalog.insert key definition).2
  | .retain keep => (catalog.retain keep).2
  | .replaceNamed definition => (catalog.replaceNamed definition).2
  | .clear => .empty

def answer (catalog : Catalog κ) : Change κ → Answer κ
  | .insert key definition => .replaced (catalog.insert key definition).1
  | .retain keep => .dropped (catalog.retain keep).1
  | .replaceNamed definition => .counted (catalog.replaceNamed definition).1
  | .clear => .done

/-- An empty catalog after changes, the first one first. -/
def ofHistory (history : List (Change κ)) : Catalog κ :=
  history.foldl change .empty

theorem ofHistory_concat (history : List (Change κ)) (last : Change κ) :
    ofHistory (history ++ [last]) = (ofHistory history).change last :=
  List.foldl_append

/-! ## One change -/

/-- The keys that a change does not drop keep their order, and a new one comes behind them. -/
theorem keysOf_change (catalog : Catalog κ) (change : Change κ) (kind : DefinitionKind) :
    (catalog.change change).keysOf kind =
      (catalog.keysOf kind).filter (fun key => !change.drops key) ++
        ((change.filed? kind).filter (· ∉ catalog.keysOf kind)).toList := by
  have hall : (catalog.keysOf kind).filter (fun _ => true) = catalog.keysOf kind :=
    List.filter_eq_self.2 fun _ _ => rfl
  cases change with
  | insert key definition =>
    simp only [Catalog.change, keysOf_insert, Change.drops, Change.filed?, Bool.not_false, hall]
    by_cases hkind : definition.kind = kind
    · by_cases hkey : key ∈ catalog.keysOf kind
      · simp [hkind, hkey, Option.filter]
      · simp [hkind, hkey, Option.filter]
    · simp [hkind]
  | retain keep => simp [Catalog.change, Change.drops, Change.filed?]
  | replaceNamed definition =>
    simp [Catalog.change, keysOf_replaceNamed, Change.drops, Change.filed?, hall]
  | clear =>
    have hnone : (catalog.keysOf kind).filter (fun _ => false) = [] :=
      List.filter_eq_nil_iff.2 fun _ _ => Bool.false_ne_true
    simp only [Catalog.change, Change.drops, Change.filed?, Bool.not_true, hnone]
    cases kind <;> rfl

theorem mem_keysOf_change (catalog : Catalog κ) (change : Change κ) (kind : DefinitionKind)
    (key : κ) : key ∈ (catalog.change change).keysOf kind ↔
      change.filed? kind = some key ∨ key ∈ catalog.keysOf kind ∧ change.drops key = false := by
  rw [keysOf_change, List.mem_append, List.mem_filter, Option.mem_toList,
    Option.filter_eq_some_iff, Bool.not_eq_true', decide_eq_true_eq]
  constructor
  · rintro (hold | hnew)
    · exact .inr hold
    · exact .inl hnew.1
  · rintro (hfiled | hold)
    · by_cases hkey : key ∈ catalog.keysOf kind
      · exact .inl ⟨hkey, Change.drops_of_filed? hfiled key⟩
      · exact .inr ⟨hfiled, hkey⟩
    · exact .inl hold

/-- An entry that a change neither files nor drops holds its definition or the one that replaces
it. -/
theorem get?_change_of_kept {change : Change κ} {kind : DefinitionKind} {key : κ}
    (hfiled : change.filed? kind ≠ some key) (hdrops : change.drops key = false)
    (catalog : Catalog κ) :
    (catalog.change change).get? kind key =
      (catalog.get? kind key).map fun old => (change.replacement? old.kind old.name).getD old := by
  cases change with
  | insert other definition =>
    have hother : ¬ (definition.kind = kind ∧ other = key) := by
      rintro ⟨rfl, rfl⟩
      exact hfiled (if_pos rfl)
    simp only [Catalog.change, get?_insert, if_neg hother, Change.replacement?,
      Option.getD_none, Option.map_id']
  | retain keep =>
    rw [Change.drops, Bool.not_eq_false'] at hdrops
    simp only [Catalog.change, get?_retain, if_pos hdrops, Change.replacement?,
      Option.getD_none, Option.map_id']
  | replaceNamed definition =>
    rw [Catalog.change, get?_replaceNamed]
    congr 1
    funext old
    simp only [Change.replacement?, eq_comm (a := definition.kind),
      eq_comm (a := definition.name)]
    split <;> rfl
  | clear => cases hdrops

end Run

/-! ## What the history says -/

/-- The entry was filed, and was not dropped since. -/
def Present (history : List (Change κ)) (kind : DefinitionKind) (key : κ) : Prop :=
  Since (fun _ change => change.filed? kind = some key) (·.drops key = false) history

/-- The entry was filed when there was none, after as many changes as `moment` says, and was not
dropped since. -/
def CameIn (history : List (Change κ)) (kind : DefinitionKind) (key : κ) (moment : Nat) : Prop :=
  Since (fun before change => before.length = moment ∧ change.filed? kind = some key ∧
    ¬ Present before kind key) (·.drops key = false) history

/-- The definition of an entry: the one that was filed last, if it was not dropped since, or the
last one that has come in place of all of its kind and name since then. -/
def Holds (history : List (Change κ)) (kind : DefinitionKind) (key : κ)
    (definition : Definition) : Prop :=
  ∃ before first after, history = before ++ .insert key first :: after ∧ first.kind = kind ∧
    (∀ later ∈ after, later.filed? kind ≠ some key ∧ later.drops key = false) ∧
    definition = (after.filterMap (·.replacement? kind first.name)).getLastD first

/-- The order of the keys: platforms come before libraries, and entries of one kind in the order in
which they came in. -/
def ListedBefore (history : List (Change κ)) (first second : DefinitionKind × κ) : Prop :=
  first.1 = .platform ∧ second.1 = .library ∨
    first.1 = second.1 ∧ ∀ moment later, CameIn history first.1 first.2 moment →
      CameIn history second.1 second.2 later → moment < later

section Moments

variable {history : List (Change κ)} {last : Change κ} {kind : DefinitionKind} {key : κ}
  {moment : Nat}

theorem present_concat : Present (history ++ [last]) kind key ↔
    last.filed? kind = some key ∨ Present history kind key ∧ last.drops key = false :=
  since_concat

theorem cameIn_concat : CameIn (history ++ [last]) kind key moment ↔
    (history.length = moment ∧ last.filed? kind = some key ∧ ¬ Present history kind key) ∨
      CameIn history kind key moment ∧ last.drops key = false :=
  since_concat

theorem CameIn.present (h : CameIn history kind key moment) : Present history kind key := by
  obtain ⟨before, change, after, hsplit, ⟨-, hfiled, -⟩, hkept⟩ := h
  exact ⟨before, change, after, hsplit, hfiled, hkept⟩

theorem CameIn.lt_length (h : CameIn history kind key moment) : moment < history.length := by
  obtain ⟨before, change, after, rfl, ⟨rfl, -⟩, -⟩ := h
  simp

/-- An entry that has been there comes in no second time. -/
theorem CameIn.of_concat (h : CameIn (history ++ [last]) kind key moment)
    (hpresent : Present history kind key) : CameIn history kind key moment := by
  rcases cameIn_concat.1 h with ⟨-, -, habsent⟩ | ⟨hold, -⟩
  · exact absurd hpresent habsent
  · exact hold

theorem present_iff_exists_cameIn :
    Present history kind key ↔ ∃ moment, CameIn history kind key moment := by
  constructor
  · intro h
    induction history using List.reverseRecOn with
    | nil => exact absurd h not_since_nil
    | append_singleton history last ih =>
      by_cases hpresent : Present history kind key
      · obtain ⟨moment, hmoment⟩ := ih hpresent
        have hdrops : last.drops key = false := by
          rcases present_concat.1 h with hfiled | ⟨-, hdrops⟩
          · exact Change.drops_of_filed? hfiled key
          · exact hdrops
        exact ⟨moment, cameIn_concat.2 (.inr ⟨hmoment, hdrops⟩)⟩
      · have hfiled : last.filed? kind = some key := by
          rcases present_concat.1 h with hfiled | ⟨hpast, -⟩
          · exact hfiled
          · exact absurd hpast hpresent
        exact ⟨history.length, cameIn_concat.2 (.inl ⟨rfl, hfiled, hpresent⟩)⟩
  · rintro ⟨moment, hmoment⟩
    exact hmoment.present

end Moments

/-! ## Catalogs after changes -/

section History

variable [DecidableEq κ]

theorem mem_keysOf_ofHistory_iff {history : List (Change κ)} {kind : DefinitionKind} {key : κ} :
    key ∈ (ofHistory history).keysOf kind ↔ Present history kind key := by
  have hempty : key ∉ (empty : Catalog κ).keysOf kind := by
    cases kind <;> exact List.not_mem_nil
  exact foldl_iff_since (key ∈ ·.keysOf kind) (mem_keysOf_change · · kind key) hempty history

omit [DecidableEq κ] in
/-- What comes in place of a definition has its kind and name. -/
theorem same_of_getLastD_replacements (after : List (Change κ)) (first : Definition) :
    ((after.filterMap (·.replacement? first.kind first.name)).getLastD first).kind = first.kind ∧
      ((after.filterMap (·.replacement? first.kind first.name)).getLastD first).name =
        first.name := by
  have hmem := List.getLastD_mem_cons
    (l := after.filterMap (·.replacement? first.kind first.name)) (a := first)
  rcases List.mem_cons.1 hmem with hfirst | hlater
  · rw [hfirst]
    exact ⟨rfl, rfl⟩
  · obtain ⟨change, -, hchange⟩ := List.mem_filterMap.1 hlater
    exact Change.same_of_replacement? hchange

/-- By induction on the changes behind the one that filed the definition. Each of them replaces the
definition that the entry holds by then, and that one still has the kind and name of the first. -/
theorem get?_of_filed {before after : List (Change κ)} {key : κ} {first : Definition}
    (hafter : ∀ later ∈ after, later.filed? first.kind ≠ some key ∧ later.drops key = false) :
    (ofHistory (before ++ .insert key first :: after)).get? first.kind key =
      some ((after.filterMap (·.replacement? first.kind first.name)).getLastD first) := by
  induction after using List.reverseRecOn with
  | nil =>
    rw [ofHistory_concat, change, get?_insert, if_pos ⟨rfl, rfl⟩]
    rfl
  | append_singleton after last ih =>
    rw [List.forall_mem_append, List.forall_mem_singleton] at hafter
    obtain ⟨hafter, hfiled, hdrops⟩ := hafter
    obtain ⟨hkind, hname⟩ := same_of_getLastD_replacements after first
    rw [← List.cons_append, ← List.append_assoc, ofHistory_concat,
      get?_change_of_kept hfiled hdrops, ih hafter, Option.map_some, hkind, hname,
      List.filterMap_append]
    cases hlast : last.replacement? first.kind first.name with
    | none => simp [hlast]
    | some definition =>
      rw [List.filterMap_cons_some hlast, List.filterMap_nil, List.getLastD_concat,
        Option.getD_some]

/-- An entry that is there was filed some time for the last time. -/
theorem exists_filed_of_mem_keysOf {history : List (Change κ)} {kind : DefinitionKind} {key : κ}
    (h : key ∈ (ofHistory history).keysOf kind) :
    ∃ before first after, history = before ++ .insert key first :: after ∧ first.kind = kind ∧
      ∀ later ∈ after, later.filed? kind ≠ some key ∧ later.drops key = false := by
  induction history using List.reverseRecOn with
  | nil => cases kind <;> exact absurd h List.not_mem_nil
  | append_singleton history last ih =>
    rw [ofHistory_concat, mem_keysOf_change] at h
    by_cases hfiled : last.filed? kind = some key
    · obtain ⟨definition, hkind, rfl⟩ := Change.eq_insert_of_filed? hfiled
      exact ⟨history, definition, [], rfl, hkind, nofun⟩
    · obtain ⟨hmem, hdrops⟩ := h.resolve_left hfiled
      obtain ⟨before, first, after, rfl, hkind, hafter⟩ := ih hmem
      refine ⟨before, first, after ++ [last], by simp, hkind, ?_⟩
      rw [List.forall_mem_append, List.forall_mem_singleton]
      exact ⟨hafter, hfiled, hdrops⟩

theorem get?_ofHistory_iff {history : List (Change κ)} {kind : DefinitionKind} {key : κ}
    {definition : Definition} :
    (ofHistory history).get? kind key = some definition ↔
      Holds history kind key definition := by
  constructor
  · intro h
    have hmem : key ∈ (ofHistory history).keysOf kind := by
      rw [← isSome_get?_iff, h, Option.isSome_some]
    obtain ⟨before, first, after, rfl, rfl, hafter⟩ := exists_filed_of_mem_keysOf hmem
    rw [get?_of_filed hafter, Option.some.injEq] at h
    exact ⟨before, first, after, rfl, rfl, hafter, h.symm⟩
  · rintro ⟨before, first, after, rfl, rfl, hafter, rfl⟩
    exact get?_of_filed hafter

/-- By induction on the history. The keys that were there keep their order and their moments, and
the new one comes in at a moment after all of these. -/
theorem pairwise_keysOf_ofHistory (history : List (Change κ)) (kind : DefinitionKind) :
    ((ofHistory history).keysOf kind).Pairwise fun key other => ∀ moment later,
      CameIn history kind key moment → CameIn history kind other later → moment < later := by
  induction history using List.reverseRecOn with
  | nil => cases kind <;> exact .nil
  | append_singleton history last ih =>
    rw [ofHistory_concat, keysOf_change, List.pairwise_append]
    refine ⟨?_, ?_, ?_⟩
    · refine (ih.sublist List.filter_sublist).imp_of_mem ?_
      intro key other hkey hother hbefore moment later hmoment hlater
      have hpresent := mem_keysOf_ofHistory_iff.1 (List.mem_filter.1 hkey).1
      have hothers := mem_keysOf_ofHistory_iff.1 (List.mem_filter.1 hother).1
      exact hbefore moment later (hmoment.of_concat hpresent) (hlater.of_concat hothers)
    · cases (last.filed? kind).filter (· ∉ (ofHistory history).keysOf kind) with
      | none => exact .nil
      | some key => exact List.pairwise_singleton _ key
    · intro key hkey other hother moment later hmoment hlater
      have hpresent := mem_keysOf_ofHistory_iff.1 (List.mem_filter.1 hkey).1
      have hlt := (hmoment.of_concat hpresent).lt_length
      rw [Option.mem_toList, Option.filter_eq_some_iff, decide_eq_true_eq,
        mem_keysOf_ofHistory_iff] at hother
      rcases cameIn_concat.1 hlater with ⟨rfl, -⟩ | ⟨hold, -⟩
      · exact hlt
      · exact absurd hold.present hother.2

theorem pairwise_keys_ofHistory (history : List (Change κ)) :
    (ofHistory history).keys.Pairwise (ListedBefore history) := by
  rw [keys_eq, List.pairwise_append, List.pairwise_map, List.pairwise_map]
  refine ⟨?_, ?_, ?_⟩
  · exact (pairwise_keysOf_ofHistory history .platform).imp fun hbefore => .inr ⟨rfl, hbefore⟩
  · exact (pairwise_keysOf_ofHistory history .library).imp fun hbefore => .inr ⟨rfl, hbefore⟩
  · intro first hfirst second hsecond
    obtain ⟨key, -, rfl⟩ := List.mem_map.1 hfirst
    obtain ⟨other, -, rfl⟩ := List.mem_map.1 hsecond
    exact .inl ⟨rfl, rfl⟩

omit [DecidableEq κ] in
theorem nodup_keys (catalog : Catalog κ) : catalog.keys.Nodup := by
  rw [keys_eq, List.nodup_append]
  refine ⟨catalog.platforms.nodup.map (Prod.mk_right_injective _),
    catalog.libraries.nodup.map (Prod.mk_right_injective _), ?_⟩
  intro first hfirst second hsecond heq
  obtain ⟨key, -, rfl⟩ := List.mem_map.1 hfirst
  obtain ⟨other, -, rfl⟩ := List.mem_map.1 hsecond
  cases heq

/-- What is dropped is what the keys before have and those behind have not, in the same order. -/
theorem dropped_eq_filter (catalog : Catalog κ) (keep : κ → Bool) :
    catalog.dropped keep = catalog.keys.filter (· ∉ (catalog.retain keep).2.keys) := by
  apply List.filter_congr
  rintro ⟨kind, key⟩ hmem
  rw [mem_keys_iff] at hmem
  simp [mem_keys_iff, hmem]

/-! ## The import cache -/

/-- A catalog is what the changes since it was empty make of it, and so are its answers. -/
structure Replays (history : List (Change κ)) (catalog : Catalog κ) : Prop where
  nodup : catalog.keys.Nodup
  length_keys : catalog.keys.length = catalog.size
  isSome_get? : ∀ kind key, (catalog.get? kind key).isSome ↔ (kind, key) ∈ catalog.keys
  get? : ∀ kind key definition,
    catalog.get? kind key = some definition ↔ Holds history kind key definition
  kind : ∀ kind key definition, catalog.get? kind key = some definition → definition.kind = kind
  came_in : ∀ kind key, (kind, key) ∈ catalog.keys ↔ ∃ moment, CameIn history kind key moment
  ordered : catalog.keys.Pairwise (ListedBefore history)
  replaced : ∀ key definition, ∃ old, catalog.answer (.insert key definition) = .replaced old ∧
    ∀ overwritten, old = some overwritten ↔ Holds history definition.kind key overwritten
  dropped : ∀ keep, catalog.answer (.retain keep) =
    .dropped (catalog.keys.filter (· ∉ (catalog.change (.retain keep)).keys))
  counted : ∀ definition, catalog.answer (.replaceNamed definition) =
    .counted (catalog.keys.countP fun entry => (catalog.get? entry.1 entry.2).any fun old =>
      old.kind = definition.kind ∧ old.name = definition.name)

/-- Whatever is done to an import cache, its entries, their order and its answers follow from what
was done. -/
theorem importCache_replays_history (history : List (Change ImportKey)) :
    Replays history (ofHistory history : ImportCache) where
  nodup := nodup_keys _
  length_keys := by simp [keys, size, OrderedMap.keys, OrderedMap.size]
  isSome_get? kind key := by rw [isSome_get?_iff, mem_keys_iff]
  get? _ _ _ := get?_ofHistory_iff
  kind _ _ _ := kind_of_get?
  came_in kind key := by
    rw [mem_keys_iff, mem_keysOf_ofHistory_iff, present_iff_exists_cameIn]
  ordered := pairwise_keys_ofHistory history
  replaced key definition := ⟨_, rfl, fun _ => get?_ofHistory_iff⟩
  dropped keep := congrArg Answer.dropped (dropped_eq_filter _ keep)
  counted definition := congrArg Answer.counted (countNamed_eq _ definition)

end History

end CrossModel.Catalog
