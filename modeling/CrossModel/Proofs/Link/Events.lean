import CrossModel.Proofs.Link.Providers

/-!
# References to events

An event is referred to by its name alone, so several events in scope can have the name that is
looked for. Their positions are ordered: libraries before platforms, and within each of the two by
index, the outer index first. A reference leads to the event at the least position. So what is
added to a scope behind an event does not change what the references to it mean.
-/

namespace CrossModel

universe u v

/-! ## Searches -/

/-- A search by a partial function ends at the first item that has a value. -/
theorem findSome?_eq_some_iff_firstAt {α : Type u} {β : Type v} {f : α → Option β}
    {items : List α} {value : β} :
    items.findSome? f = some value ↔
      ∃ index item, FirstAt (fun item => (f item).isSome = true) items index item ∧
        f item = some value := by
  have hfound : ∀ {value}, items.findSome? f = some value →
      ∃ index item, FirstAt (fun item => (f item).isSome = true) items index item ∧
        f item = some value := by
    intro value h
    obtain ⟨before, item, behind, rfl, hitem, hbefore⟩ := List.findSome?_eq_some_iff.1 h
    refine ⟨before.length, item, ⟨by simp, by simp [hitem], ?_⟩, hitem⟩
    intro earlier hless other hother
    rw [List.getElem?_append_left hless] at hother
    simp [hbefore other (List.mem_of_getElem? hother)]
  refine ⟨hfound, ?_⟩
  rintro ⟨index, item, hfirst, hitem⟩
  cases hsearch : items.findSome? f with
  | none =>
    have hnone := List.findSome?_eq_none_iff.1 hsearch item (List.mem_of_getElem? hfirst.found)
    rw [hnone] at hitem
    cases hitem
  | some other =>
    obtain ⟨_, _, hother, hvalue⟩ := hfound hsearch
    rw [(hother.unique hfirst).2, hitem] at hvalue
    exact hvalue.symm

theorem firstAt_zipIdx_iff {α : Type u} {condition : α → Prop} {items : List α} {index : Nat}
    {entry : α × Nat} :
    FirstAt (fun entry => condition entry.1) items.zipIdx index entry ↔
      FirstAt condition items index entry.1 ∧ entry.2 = index := by
  have hentries : ∀ (place : Nat) (entry : α × Nat), items.zipIdx[place]? = some entry ↔
      items[place]? = some entry.1 ∧ entry.2 = place := by
    rintro place ⟨item, position⟩
    simp only [List.getElem?_zipIdx, Option.map_eq_some_iff, Nat.zero_add, Prod.mk.injEq]
    grind
  constructor
  · rintro ⟨hfound, hholds, hfirst⟩
    rw [hentries] at hfound
    refine ⟨⟨hfound.1, hholds, ?_⟩, hfound.2⟩
    intro earlier hless other hother
    exact hfirst earlier hless (other, earlier) ((hentries _ _).2 ⟨hother, rfl⟩)
  · rintro ⟨⟨hfound, hholds, hfirst⟩, hposition⟩
    refine ⟨(hentries _ _).2 ⟨hfound, hposition⟩, hholds, ?_⟩
    intro earlier hless other hother
    exact hfirst earlier hless other.1 ((hentries _ _).1 hother).1

/-! ## Positions -/

/-- The place of an event in a scope. -/
inductive EventPosition where
  | inLibrary (library event : Nat)
  | inPlatform (platform provider event : Nat)
deriving DecidableEq, Repr

/-- Libraries come before platforms, and outer indices count before inner ones. -/
def EventPosition.Before : EventPosition → EventPosition → Prop
  | inLibrary library event, inLibrary otherLibrary otherEvent =>
    library < otherLibrary ∨ library = otherLibrary ∧ event < otherEvent
  | inLibrary _ _, inPlatform _ _ _ => True
  | inPlatform _ _ _, inLibrary _ _ => False
  | inPlatform platform provider event, inPlatform otherPlatform otherProvider otherEvent =>
    platform < otherPlatform ∨ platform = otherPlatform ∧
      (provider < otherProvider ∨ provider = otherProvider ∧ event < otherEvent)

theorem EventPosition.Before.asymm {position other : EventPosition} (h : position.Before other) :
    ¬other.Before position := by
  intro hother
  cases position <;> cases other <;> simp only [Before] at h hother <;> omega

namespace Scope

/-- The handle for the event at a position, if there is a library or a platform. -/
def handleAt? (scope : Scope) : EventPosition → Option EventHandle
  | .inLibrary library event =>
    scope.libraries[library]?.map fun entry => .inLibrary entry.shared event
  | .inPlatform platform provider event =>
    scope.platforms[platform]?.map fun entry => .inPlatform entry.shared provider event

/-- There is an event at this position, and it has the name. -/
def Matches (scope : Scope) (name : String) (position : EventPosition) : Prop :=
  ∃ event, (scope.handleAt? position).bind (·.event?) = some event ∧ event.name.text = name

/-- The position comes before all others with an event of this name. -/
structure FirstMatch (scope : Scope) (name : String) (position : EventPosition) : Prop where
  isMatch : scope.Matches name position
  least : ∀ other, scope.Matches name other → other = position ∨ position.Before other

theorem matches_inLibrary_iff {scope : Scope} {name : String} {library index : Nat} :
    scope.Matches name (.inLibrary library index) ↔
      ∃ entry event, scope.libraries[library]? = some entry ∧
        entry.shared.content.events[index]? = some event ∧ event.name.text = name := by
  simp only [Matches, handleAt?, Option.bind_map, Option.bind_eq_some_iff, EventHandle.event?,
    Function.comp_apply]
  grind

theorem matches_inPlatform_iff {scope : Scope} {name : String} {platform provider index : Nat} :
    scope.Matches name (.inPlatform platform provider index) ↔
      ∃ entry source event, scope.platforms[platform]? = some entry ∧
        entry.shared.content.providers[provider]? = some source ∧
        source.events[index]? = some event ∧ event.name.text = name := by
  simp only [Matches, handleAt?, Option.bind_map, Option.bind_eq_some_iff, EventHandle.event?,
    Function.comp_apply]
  grind

end Scope

/-! ## Searching one definition -/

namespace EventHandle

theorem ofLibrary?_eq_some_iff {library : Shared Library} {name : String} {handle : EventHandle} :
    ofLibrary? library name = some handle ↔
      ∃ index event, FirstAt (·.name.text = name) library.content.events index event ∧
        inLibrary library index = handle := by
  simp only [ofLibrary?, Option.map_eq_some_iff, findIdx?_eq_some_iff_firstAt, decide_eq_true_eq]
  constructor
  · rintro ⟨index, ⟨event, hfirst⟩, hhandle⟩
    exact ⟨index, event, hfirst, hhandle⟩
  · rintro ⟨index, event, hfirst, hhandle⟩
    exact ⟨index, ⟨event, hfirst⟩, hhandle⟩

theorem isSome_ofLibrary?_iff {library : Shared Library} {name : String} :
    (ofLibrary? library name).isSome = true ↔
      ∃ event ∈ library.content.events, event.name.text = name := by
  simp [ofLibrary?]

theorem ofPlatform?_eq_some_iff {platform : Shared Platform} {name : String}
    {handle : EventHandle} :
    ofPlatform? platform name = some handle ↔
      ∃ position provider index event,
        FirstAt (fun provider => ∃ event ∈ provider.events, event.name.text = name)
          platform.content.providers position provider ∧
        FirstAt (·.name.text = name) provider.events index event ∧
        inPlatform platform position index = handle := by
  have hplaces := @firstAt_zipIdx_iff _ (fun provider : Provider =>
    ∃ event ∈ provider.events, event.name.text = name) platform.content.providers
  simp only [ofPlatform?, findSome?_eq_some_iff_firstAt, Option.isSome_map, List.findIdx?_isSome,
    List.any_eq_true, decide_eq_true_eq, Option.map_eq_some_iff, findIdx?_eq_some_iff_firstAt,
    hplaces]
  constructor
  · rintro ⟨position, ⟨provider, _⟩, ⟨hprovider, rfl⟩, index, ⟨event, hevent⟩, hhandle⟩
    exact ⟨_, provider, index, event, hprovider, hevent, hhandle⟩
  · rintro ⟨position, provider, index, event, hprovider, hevent, hhandle⟩
    exact ⟨position, (provider, position), ⟨hprovider, rfl⟩, index, ⟨event, hevent⟩, hhandle⟩

theorem isSome_ofPlatform?_iff {platform : Shared Platform} {name : String} :
    (ofPlatform? platform name).isSome = true ↔
      ∃ provider ∈ platform.content.providers, ∃ event ∈ provider.events,
        event.name.text = name := by
  have hmem : ∀ provider, (∃ position, (provider, position) ∈ platform.content.providers.zipIdx) ↔
      provider ∈ platform.content.providers := by
    intro provider
    simp [List.mem_iff_getElem?]
  rw [ofPlatform?, List.isSome_findSome?]
  simp [hmem]

end EventHandle

namespace Scope

variable {scope : Scope} {name : String}

theorem firstMatch_inLibrary {library index : Nat} {entry : Scoped Library} {event : Event}
    (hentry : FirstAt (fun entry => (EventHandle.ofLibrary? entry.shared name).isSome = true)
      scope.libraries library entry)
    (hevent : FirstAt (·.name.text = name) entry.shared.content.events index event) :
    scope.FirstMatch name (.inLibrary library index) where
  isMatch := matches_inLibrary_iff.2 ⟨entry, event, hentry.found, hevent.found, hevent.holds⟩
  least other hother := by
    cases other with
    | inPlatform platform provider otherIndex => exact .inr trivial
    | inLibrary otherLibrary otherIndex =>
      obtain ⟨otherEntry, otherEvent, hfound, hat, hname⟩ := matches_inLibrary_iff.1 hother
      have hlibrary : library ≤ otherLibrary := hentry.le hfound
        (EventHandle.isSome_ofLibrary?_iff.2 ⟨otherEvent, List.mem_of_getElem? hat, hname⟩)
      rcases Nat.eq_or_lt_of_le hlibrary with rfl | hless
      · obtain rfl := Option.some.inj (hentry.found.symm.trans hfound)
        rcases Nat.eq_or_lt_of_le (hevent.le hat hname) with rfl | hindex
        · exact .inl rfl
        · exact .inr (.inr ⟨rfl, hindex⟩)
      · exact .inr (.inl hless)

theorem firstMatch_inPlatform {platform provider index : Nat} {entry : Scoped Platform}
    {source : Provider} {event : Event}
    (hlibraries : ∀ entry ∈ scope.libraries, EventHandle.ofLibrary? entry.shared name = none)
    (hentry : FirstAt (fun entry => (EventHandle.ofPlatform? entry.shared name).isSome = true)
      scope.platforms platform entry)
    (hsource : FirstAt (fun provider => ∃ event ∈ provider.events, event.name.text = name)
      entry.shared.content.providers provider source)
    (hevent : FirstAt (·.name.text = name) source.events index event) :
    scope.FirstMatch name (.inPlatform platform provider index) where
  isMatch := matches_inPlatform_iff.2
    ⟨entry, source, event, hentry.found, hsource.found, hevent.found, hevent.holds⟩
  least other hother := by
    cases other with
    | inLibrary library otherIndex =>
      obtain ⟨otherEntry, otherEvent, hfound, hat, hname⟩ := matches_inLibrary_iff.1 hother
      have hnone := hlibraries otherEntry (List.mem_of_getElem? hfound)
      have hsome := EventHandle.isSome_ofLibrary?_iff.2
        ⟨otherEvent, List.mem_of_getElem? hat, hname⟩
      rw [hnone] at hsome
      cases hsome
    | inPlatform otherPlatform otherProvider otherIndex =>
      obtain ⟨otherEntry, otherSource, otherEvent, hfound, hsourced, hat, hname⟩ :=
        matches_inPlatform_iff.1 hother
      have hraised : ∃ event ∈ otherSource.events, event.name.text = name :=
        ⟨otherEvent, List.mem_of_getElem? hat, hname⟩
      have hplatform : platform ≤ otherPlatform := hentry.le hfound
        (EventHandle.isSome_ofPlatform?_iff.2
          ⟨otherSource, List.mem_of_getElem? hsourced, hraised⟩)
      rcases Nat.eq_or_lt_of_le hplatform with rfl | hless
      · obtain rfl := Option.some.inj (hentry.found.symm.trans hfound)
        rcases Nat.eq_or_lt_of_le (hsource.le hsourced hraised) with rfl | hprovider
        · obtain rfl := Option.some.inj (hsource.found.symm.trans hsourced)
          rcases Nat.eq_or_lt_of_le (hevent.le hat hname) with rfl | hindex
          · exact .inl rfl
          · exact .inr (.inr ⟨rfl, .inr ⟨rfl, hindex⟩⟩)
        · exact .inr (.inr ⟨rfl, .inl hprovider⟩)
      · exact .inr (.inl hless)

theorem exists_firstMatch_of_event? {handle : EventHandle} (h : scope.event? name = some handle) :
    ∃ position, scope.handleAt? position = some handle ∧ scope.FirstMatch name position := by
  rw [event?, Option.or_eq_some_iff] at h
  rcases h with hlibraries | ⟨hnone, hplatforms⟩
  · obtain ⟨library, entry, hentry, hfound⟩ := findSome?_eq_some_iff_firstAt.1 hlibraries
    obtain ⟨index, event, hevent, rfl⟩ := EventHandle.ofLibrary?_eq_some_iff.1 hfound
    exact ⟨.inLibrary library index, by simp [handleAt?, hentry.found],
      firstMatch_inLibrary hentry hevent⟩
  · obtain ⟨platform, entry, hentry, hfound⟩ := findSome?_eq_some_iff_firstAt.1 hplatforms
    obtain ⟨provider, source, index, event, hsource, hevent, rfl⟩ :=
      EventHandle.ofPlatform?_eq_some_iff.1 hfound
    exact ⟨.inPlatform platform provider index, by simp [handleAt?, hentry.found],
      firstMatch_inPlatform (List.findSome?_eq_none_iff.1 hnone) hentry hsource hevent⟩

theorem event?_eq_none_iff :
    scope.event? name = none ↔
      (∀ entry ∈ scope.libraries, ∀ event ∈ entry.shared.content.events,
        event.name.text ≠ name) ∧
      ∀ entry ∈ scope.platforms, ∀ provider ∈ entry.shared.content.providers,
        ∀ event ∈ provider.events, event.name.text ≠ name := by
  rw [event?, Option.or_eq_none_iff, List.findSome?_eq_none_iff, List.findSome?_eq_none_iff]
  simp only [← Option.not_isSome_iff_eq_none, EventHandle.isSome_ofLibrary?_iff,
    EventHandle.isSome_ofPlatform?_iff, not_exists, not_and, ne_eq]

theorem not_matches_of_event?_eq_none (h : scope.event? name = none) (position : EventPosition) :
    ¬scope.Matches name position := by
  obtain ⟨hlibraries, hplatforms⟩ := event?_eq_none_iff.1 h
  intro hmatch
  cases position with
  | inLibrary library index =>
    obtain ⟨entry, event, hentry, hevent, hname⟩ := matches_inLibrary_iff.1 hmatch
    exact hlibraries entry (List.mem_of_getElem? hentry) event (List.mem_of_getElem? hevent) hname
  | inPlatform platform provider index =>
    obtain ⟨entry, source, event, hentry, hsource, hevent, hname⟩ :=
      matches_inPlatform_iff.1 hmatch
    exact hplatforms entry (List.mem_of_getElem? hentry) source (List.mem_of_getElem? hsource)
      event (List.mem_of_getElem? hevent) hname

theorem FirstMatch.unique {position other : EventPosition} (h : scope.FirstMatch name position)
    (hother : scope.FirstMatch name other) : position = other := by
  rcases h.least other hother.isMatch with heq | hbefore
  · exact heq.symm
  · rcases hother.least position h.isMatch with heq | hbehind
    · exact heq
    · exact absurd hbehind hbefore.asymm

/-- A reference leads to the event at the least position with its name. -/
theorem event?_eq_some_iff {handle : EventHandle} :
    scope.event? name = some handle ↔
      ∃ position, scope.handleAt? position = some handle ∧ scope.FirstMatch name position := by
  refine ⟨exists_firstMatch_of_event?, ?_⟩
  rintro ⟨position, hhandle, hfirst⟩
  cases hevent : scope.event? name with
  | none => exact absurd hfirst.isMatch (not_matches_of_event?_eq_none hevent position)
  | some found =>
    obtain ⟨other, hfound, hother⟩ := exists_firstMatch_of_event? hevent
    rw [← hfirst.unique hother, hhandle] at hfound
    exact hfound.symm

/-! ## Larger scopes -/

/-- A definition that is put in scope, and how. -/
structure Addition where
  aliasName : Option String
  origin : ScopeOrigin
  definition : Definition

/-- The scope with more definitions behind the others. -/
def extend (scope : Scope) (additions : List Addition) : Scope :=
  additions.foldl (fun scope added => scope.push added.aliasName added.origin added.definition)
    scope

theorem owner_of_ofPlatform? {platform : Shared Platform} {handle : EventHandle}
    (h : EventHandle.ofPlatform? platform name = some handle) :
    handle.owner = .platform platform := by
  obtain ⟨_, _, _, _, -, -, rfl⟩ := EventHandle.ofPlatform?_eq_some_iff.1 h
  rfl

/-- A platform that is added does not change what a name refers to, and a library does not if the
name refers to an event of a library. -/
theorem event?_push {handle : EventHandle} (h : scope.event? name = some handle)
    {definition : Definition} (hkind : definition.kind = .library → handle.owner.kind = .library)
    (aliasName : Option String) (origin : ScopeOrigin) :
    (scope.push aliasName origin definition).event? name = some handle := by
  unfold event? at h ⊢
  cases definition with
  | platform shared =>
    simp only [push, List.findSome?_append]
    rw [← Option.or_assoc, h, Option.some_or]
  | library shared =>
    rcases Option.or_eq_some_iff.1 h with hlibraries | ⟨-, hplatforms⟩
    · simp only [push, List.findSome?_append, hlibraries, Option.some_or]
    · obtain ⟨entry, -, hentry⟩ := List.exists_of_findSome?_eq_some hplatforms
      have howner := hkind rfl
      rw [owner_of_ofPlatform? hentry] at howner
      cases howner

theorem event?_extend {handle : EventHandle} (h : scope.event? name = some handle)
    {additions : List Addition} (hadditions : ∀ added ∈ additions,
      added.definition.kind = .library → handle.owner.kind = .library) :
    (scope.extend additions).event? name = some handle := by
  induction additions generalizing scope with
  | nil => exact h
  | cons added rest ih =>
    obtain ⟨hadded, hrest⟩ := List.forall_mem_cons.1 hadditions
    exact ih (event?_push h hadded added.aliasName added.origin) hrest

/-- A reference to an event leads nowhere if and only if nothing in scope has the name. Otherwise it
leads to the least position with the name, and there is an event with the name there. Platforms that
are added to the scope do not change what a name refers to once it refers to something, and
libraries do not once it refers to an event of a library. -/
theorem event_leads_to_least_position (scope : Scope) (name : String) :
    (scope.event? name = none ↔
      (∀ entry ∈ scope.libraries, ∀ event ∈ entry.shared.content.events,
        event.name.text ≠ name) ∧
      ∀ entry ∈ scope.platforms, ∀ provider ∈ entry.shared.content.providers,
        ∀ event ∈ provider.events, event.name.text ≠ name) ∧
    ∀ handle,
      (scope.event? name = some handle ↔
        ∃ position, scope.handleAt? position = some handle ∧ scope.FirstMatch name position) ∧
      (scope.event? name = some handle →
        (∃ event, handle.event? = some event ∧ event.name.text = name) ∧
        ∀ additions, (∀ added ∈ additions,
            added.definition.kind = .library → handle.owner.kind = .library) →
          (scope.extend additions).event? name = some handle) := by
  refine ⟨event?_eq_none_iff, fun handle => ⟨event?_eq_some_iff, fun h => ⟨?_, ?_⟩⟩⟩
  · obtain ⟨position, hhandle, hfirst⟩ := event?_eq_some_iff.1 h
    obtain ⟨event, hevent, hname⟩ := hfirst.isMatch
    rw [hhandle] at hevent
    exact ⟨event, hevent, hname⟩
  · intro additions hadditions
    exact event?_extend h hadditions

/-- A library with this name and these events, as instance number `id`. -/
def eventLibrary (id : Nat) (name : String) (events : List String) : Shared Library :=
  ⟨id, { name := ⟨name, .zero⟩, events := events.map fun event => { name := ⟨event, .zero⟩ } }⟩

/-- A platform with an event `Tick`, and libraries of which the second one has it twice. -/
def tickingScope : Scope where
  platforms := [⟨none, ⟨0, {
      name := ⟨"Base", .zero⟩
      providers := [⟨⟨"Clock", .zero⟩, [{ name := ⟨"Tick", .zero⟩ }]⟩] }⟩, .declaration⟩]
  libraries := [⟨none, eventLibrary 1 "Quiet" ["Hush"], .declaration⟩,
    ⟨none, eventLibrary 2 "Loud" ["Bang", "Tick", "Tick"], .declaration⟩]

theorem event_leads_to_least_position_tickingScope :
    let handle := EventHandle.inLibrary (eventLibrary 2 "Loud" ["Bang", "Tick", "Tick"]) 1
    tickingScope.event? "Tick" = some handle ∧
      (∃ position, tickingScope.handleAt? position = some handle ∧
        tickingScope.FirstMatch "Tick" position) ∧
      (tickingScope.extend
        [⟨none, .declaration, .library (eventLibrary 3 "More" ["Tick"])⟩]).event? "Tick" =
        some handle := by
  intro handle
  have hevent : tickingScope.event? "Tick" = some handle := by decide +kernel
  obtain ⟨hleast, hkept⟩ := (event_leads_to_least_position tickingScope "Tick").2 handle
  exact ⟨hevent, hleast.1 hevent, (hkept hevent).2 _ fun _ _ _ => rfl⟩

end Scope

end CrossModel
