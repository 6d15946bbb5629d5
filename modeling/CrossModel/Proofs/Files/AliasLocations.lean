import CrossModel.Files.Indirections
import CrossModel.Proofs.Catalog
import CrossModel.Proofs.Files.Canonical

/-!
# Alias locations and the loads that bind them

Each import that leads to a file is a load event. One with an alias binds the location of its kind
and alias to its file, and takes the file from all other locations; one without an alias only takes
the file away. An event whose alias is ignored does neither. `Recorded` reads the indirections off a
list of events: a location stands for a file if and only if the last event that touches either of
them is the one that bound the two.
-/

namespace CrossModel

universe u

/-! ## Locations -/

/-- Two aliases share a location only if kind and alias are the same. -/
theorem DefinitionKind.aliasLocation_inj {kind other : DefinitionKind} {name otherName : String} :
    kind.aliasLocation name = other.aliasLocation otherName ↔ kind = other ∧ name = otherName := by
  -- The openings of the two kinds of locations have the same length and differ.
  have hkinds : ∀ a b : String, DefinitionKind.platform.aliasLocation a ≠
      DefinitionKind.library.aliasLocation b := by
    intro a b h
    have hchars : "custom://platforms/".toList ++ (a ++ ".platform").toList =
        "custom://libraries/".toList ++ (b ++ ".intent").toList := by
      rw [← String.toList_append, ← String.toList_append, ← String.append_assoc,
        ← String.append_assoc]
      exact congrArg String.toList h
    exact absurd (List.append_inj_left hchars (by decide)) (by decide)
  constructor
  · intro h
    cases kind with
    | platform =>
      cases other with
      | platform =>
        have hname : "custom://platforms/" ++ name ++ ".platform" =
            "custom://platforms/" ++ otherName ++ ".platform" := h
        rw [String.append_left_inj, String.append_right_inj] at hname
        exact ⟨rfl, hname⟩
      | library => exact absurd h (hkinds name otherName)
    | library =>
      cases other with
      | platform => exact absurd h.symm (hkinds otherName name)
      | library =>
        have hname : "custom://libraries/" ++ name ++ ".intent" =
            "custom://libraries/" ++ otherName ++ ".intent" := h
        rw [String.append_left_inj, String.append_right_inj] at hname
        exact ⟨rfl, hname⟩
  · rintro ⟨rfl, rfl⟩
    rfl

/-! ## Events -/

/-- An import that led to a file. -/
structure LoadEvent where
  kind : DefinitionKind
  aliasName : Option String
  file : Path
  /-- Whether the alias was ignored at that moment. -/
  ignored : Bool
deriving DecidableEq, Repr, Inhabited

/-- Whether an event has a say in whether the location of this kind and alias stands for a file: it
is for the alias, or it leads to the file. -/
def LoadEvent.concerns (kind : DefinitionKind) (name : String) (file : Path)
    (event : LoadEvent) : Bool :=
  !event.ignored &&
    ((event.kind = kind && event.aliasName = some name) || event.file = file)

namespace Indirections

/-- The indirections after one more event. -/
def after (indirections : Indirections) (event : LoadEvent) : Indirections :=
  if event.ignored then indirections
  else
    match event.aliasName with
    | none => (indirections.retire event.file).2
    | some name =>
      ((indirections.retire event.file).2.bind (event.kind.aliasLocation name) event.file).2

theorem target?_retire (indirections : Indirections) (file : Path) (location : String) :
    (indirections.retire file).2.target? location =
      (indirections.target? location).filter fun target => !target.same file :=
  OrderedMap.get?_filter_value (fun target : Path => !target.same file) indirections.targets
    location

/-- The number of locations that are forgotten is the number of those that stood for the file. -/
theorem retire_fst (indirections : Indirections) (file : Path) :
    (indirections.retire file).1 = indirections.targets.entries.countP (·.2.same file) := by
  have hall := List.length_eq_countP_add_countP (fun entry => entry.2.same file)
    (l := indirections.targets.entries)
  simp only [Bool.not_eq_true, Bool.decide_eq_false] at hall
  simp only [retire, size, OrderedMap.size, OrderedMap.filter, ← List.countP_eq_length_filter]
  omega

theorem target?_bind (indirections : Indirections) (file : Path) (location other : String) :
    (indirections.bind location file).2.target? other =
      if location = other then some file else indirections.target? other :=
  OrderedMap.get?_insert indirections.targets location other file

theorem after_of_ignored {event : LoadEvent} (indirections : Indirections)
    (h : event.ignored = true) : indirections.after event = indirections := by
  unfold after
  rw [if_pos h]

/-- An event that is not ignored binds its own location, and takes its file from all others. -/
theorem target?_after {event : LoadEvent} (indirections : Indirections)
    (h : event.ignored = false) (kind : DefinitionKind) (name : String) :
    (indirections.after event).target? (kind.aliasLocation name) =
      if event.kind = kind ∧ event.aliasName = some name then some event.file
      else (indirections.target? (kind.aliasLocation name)).filter
        fun target => !target.same event.file := by
  unfold after
  rw [h, if_neg Bool.false_ne_true]
  cases halias : event.aliasName with
  | none => simp [target?_retire]
  | some given =>
    simp only [target?_bind, target?_retire, DefinitionKind.aliasLocation_inj, Option.some.injEq]

/-- Events do not bind the location of an alias that they ignore. -/
theorem target?_of_foldl_after {events : List LoadEvent} {indirections : Indirections}
    {kind : DefinitionKind} {name : String} {file : Path}
    (hevents : ∀ event ∈ events, event.aliasName = some name → event.ignored = true)
    (h : (events.foldl after indirections).target? (kind.aliasLocation name) = some file) :
    indirections.target? (kind.aliasLocation name) = some file := by
  induction events generalizing indirections with
  | nil => exact h
  | cons event rest ih =>
    have hafter : (indirections.after event).target? (kind.aliasLocation name) = some file :=
      ih (fun other hother => hevents other (List.mem_cons_of_mem event hother)) h
    cases hignored : event.ignored with
    | true =>
      rw [after_of_ignored indirections hignored] at hafter
      exact hafter
    | false =>
      have hother : ¬ (event.kind = kind ∧ event.aliasName = some name) := by
        rintro ⟨-, halias⟩
        rw [hevents event List.mem_cons_self halias] at hignored
        cases hignored
      rw [target?_after indirections hignored, if_neg hother] at hafter
      exact (Option.filter_eq_some_iff.1 hafter).1

end Indirections

/-! ## Reading the indirections off the events -/

/-- A location stands for a file if and only if the last event that concerns the two is the one that
bound them. -/
structure Recorded (events : List LoadEvent) (indirections : Indirections) : Prop where
  canonical : ∀ event ∈ events, event.file.IsCanonical
  target_iff : ∀ kind name file, indirections.target? (kind.aliasLocation name) = some file ↔
    (events.filter (·.concerns kind name file)).getLast? = some ⟨kind, some name, file, false⟩

theorem getLast?_filter_concat {α : Type u} (keep : α → Bool) (items : List α) (item : α) :
    ((items ++ [item]).filter keep).getLast? =
      if keep item then some item else (items.filter keep).getLast? := by
  rw [List.filter_append]
  cases hkeep : keep item <;> simp [hkeep]

/-- The last of some elements is the last of fewer of them that it is still among. -/
theorem getLast?_filter_of_imp {α : Type u} {keep fewer : α → Bool} {items : List α} {last : α}
    (h : (items.filter keep).getLast? = some last) (hlast : fewer last = true)
    (himp : ∀ item, fewer item = true → keep item = true) :
    (items.filter fewer).getLast? = some last := by
  obtain ⟨before, hbefore⟩ := List.getLast?_eq_some_iff.1 h
  have htwice : (items.filter keep).filter fewer = items.filter fewer := by
    rw [List.filter_filter]
    apply List.filter_congr
    intro item _
    cases hfewer : fewer item with
    | true => simp [himp item hfewer]
    | false => rfl
  rw [← htwice, hbefore, getLast?_filter_concat, if_pos hlast]

namespace Recorded

variable {events : List LoadEvent} {indirections : Indirections}

theorem nil : Recorded [] .empty where
  canonical := by
    intro event hevent
    cases hevent
  target_iff kind name file := by
    constructor
    · intro h
      cases h
    · intro h
      cases h

/-- The file that a location stands for comes from an event. -/
theorem isCanonical_target (h : Recorded events indirections) {kind : DefinitionKind}
    {name : String} {file : Path}
    (htarget : indirections.target? (kind.aliasLocation name) = some file) :
    file.IsCanonical := by
  have hlast := List.mem_of_getLast? ((h.target_iff kind name file).1 htarget)
  exact h.canonical _ (List.mem_filter.1 hlast).1

theorem concat (h : Recorded events indirections) {event : LoadEvent}
    (hcanonical : event.file.IsCanonical) :
    Recorded (events ++ [event]) (indirections.after event) where
  canonical := by
    intro other hother
    rcases List.mem_append.1 hother with hother | hother
    · exact h.canonical other hother
    · rw [List.mem_singleton.1 hother]
      exact hcanonical
  target_iff kind name file := by
    rw [getLast?_filter_concat]
    cases hignored : event.ignored with
    | true =>
      rw [Indirections.after_of_ignored indirections hignored, h.target_iff]
      simp [LoadEvent.concerns, hignored]
    | false =>
      rw [Indirections.target?_after indirections hignored]
      obtain ⟨eventKind, eventAlias, eventFile, ignored⟩ := event
      subst hignored
      by_cases hown : eventKind = kind ∧ eventAlias = some name
      · -- The event binds the location, and does so to the file only if that is its own.
        obtain ⟨rfl, rfl⟩ := hown
        simp [LoadEvent.concerns]
      · rw [if_neg hown]
        by_cases hfile : eventFile = file
        · -- The event takes the file away from the location.
          subst hfile
          have hself : eventFile.same eventFile = true := by simp [Path.same]
          have hgone : (indirections.target? (kind.aliasLocation name)).filter
              (fun target => !target.same eventFile) ≠ some eventFile := by
            intro heq
            have hkept := (Option.filter_eq_some_iff.1 heq).2
            rw [hself] at hkept
            cases hkept
          have hother : ¬ (eventKind = kind ∧ eventAlias = some name) := hown
          simp only [LoadEvent.concerns, Bool.not_false, Bool.true_and, decide_true, Bool.or_true,
            if_true, Option.some.injEq, LoadEvent.mk.injEq, and_true, hgone, false_iff]
          exact hother
        · -- The event touches neither, though it may take another file from the location.
          have hconcerns : LoadEvent.concerns kind name file
              ⟨eventKind, eventAlias, eventFile, false⟩ = false := by
            simpa [LoadEvent.concerns, hfile] using hown
          rw [hconcerns, if_neg Bool.false_ne_true, ← h.target_iff, Option.filter_eq_some_iff]
          constructor
          · intro hkept
            exact hkept.1
          · intro htarget
            refine ⟨htarget, ?_⟩
            have hsame : file.same eventFile = false := by
              rw [← Bool.not_eq_true, (h.isCanonical_target htarget).same_iff hcanonical]
              exact Ne.symm hfile
            rw [hsame, Bool.not_false]

theorem append (h : Recorded events indirections) {more : List LoadEvent}
    (hcanonical : ∀ event ∈ more, event.file.IsCanonical) :
    Recorded (events ++ more) (more.foldl Indirections.after indirections) := by
  induction more generalizing events indirections with
  | nil =>
    rw [List.append_nil]
    exact h
  | cons event rest ih =>
    have hrest := ih (h.concat (hcanonical event List.mem_cons_self))
      fun other hother => hcanonical other (List.mem_cons_of_mem event hother)
    rw [List.append_assoc, List.singleton_append] at hrest
    exact hrest

/-- No file is what two locations stand for: the last event that led to it decides which one. -/
theorem alias_unique (h : Recorded events indirections) {kind other : DefinitionKind}
    {name otherName : String} {file : Path}
    (hfirst : indirections.target? (kind.aliasLocation name) = some file)
    (hsecond : indirections.target? (other.aliasLocation otherName) = some file) :
    kind = other ∧ name = otherName := by
  have hlast : ∀ kind name, indirections.target? (kind.aliasLocation name) = some file →
      (events.filter fun event => !event.ignored && event.file = file).getLast? =
        some ⟨kind, some name, file, false⟩ := by
    intro kind name htarget
    apply getLast?_filter_of_imp ((h.target_iff kind name file).1 htarget)
    · simp
    · intro event hevent
      simp only [Bool.and_eq_true, decide_eq_true_eq] at hevent
      simp [LoadEvent.concerns, hevent.1, hevent.2]
  have heq := (hlast kind name hfirst).symm.trans (hlast other otherName hsecond)
  simpa using heq

end Recorded

end CrossModel
