import CrossModel.Link.Definitions
import CrossModel.Proofs.Files.Canonical
import CrossModel.Proofs.Link.Reports
import Mathlib.Data.List.Basic

/-!
# The two ends of `follows`

Linking a library enters each link in two tables: with the intent that follows, and with the one
that is followed. The main result is that the tables are inverse to each other, whatever the names
in the library are, and that a link is made exactly if one intent alone has the name that is
referred to.
-/

namespace CrossModel

namespace Library

/-- The text, blanks at its ends aside, is the name alone or behind the name of the library and a
dot. -/
def RefersTo (library : Library) (text name : String) : Prop :=
  '.' ∉ name.toList ∧
    (trimmed text = name ∨ trimmed text = library.name.text ++ "." ++ name)

/-- The event at this index is the one and only intent with the name. -/
def OnlyIntent (library : Library) (name : String) (index : Nat) : Prop :=
  ∀ other, (∃ event, library.events[other]? = some event ∧ event.isIntent = true ∧
    event.name.text = name) ↔ other = index

/-! ## Candidates -/

theorem followsCandidates_of_refersTo {library : Library} {text name : String}
    (hlibrary : '.' ∉ library.name.text.toList) (h : library.RefersTo text name) :
    library.followsCandidates text = library.intentsNamed name := by
  obtain ⟨hname, halone | hqualified⟩ := h
  · have hsegments : segmentsOf '.' (trimmed text) = [name] := by
      rw [segmentsOf_eq_iff]
      simp [halone, hname]
    rw [followsCandidates, hsegments]
  · have hsegments : segmentsOf '.' (trimmed text) = [library.name.text, name] := by
      rw [segmentsOf_eq_iff]
      simp [hqualified, hname, hlibrary, List.intercalate]
    rw [followsCandidates, hsegments]
    exact if_pos rfl

theorem followsCandidates_eq_nil {library : Library} {text : String}
    (h : ∀ name, ¬library.RefersTo text name) : library.followsCandidates text = [] := by
  unfold followsCandidates
  split
  · next name hsegments =>
    rw [segmentsOf_eq_iff] at hsegments
    obtain ⟨-, htext, hname⟩ := hsegments
    refine absurd ⟨hname name List.mem_cons_self, .inl ?_⟩ (h name)
    exact String.toList_injective (by simpa using htext)
  · next owner name hsegments =>
    rw [segmentsOf_eq_iff] at hsegments
    obtain ⟨-, htext, hparts⟩ := hsegments
    split
    · next howner =>
      subst howner
      refine absurd ⟨hparts name (by simp), .inr ?_⟩ (h name)
      exact String.toList_injective (by simpa [List.intercalate] using htext)
    · rfl
  · rfl

theorem mem_intentsNamed {library : Library} {name : String} {index : Nat} :
    index ∈ library.intentsNamed name ↔ ∃ event, library.events[index]? = some event ∧
      event.isIntent = true ∧ event.name.text = name := by
  simp only [intentsNamed, List.mem_filterMap, Prod.exists, List.mem_zipIdx_iff_getElem?,
    Bool.and_eq_true, decide_eq_true_eq, Option.ite_none_right_eq_some, Option.some.injEq]
  constructor
  · rintro ⟨event, _, hevent, hintent, rfl⟩
    exact ⟨event, hevent, hintent⟩
  · rintro ⟨event, hevent, hintent⟩
    exact ⟨event, index, hevent, hintent, rfl⟩

theorem nodup_intentsNamed (library : Library) (name : String) :
    (library.intentsNamed name).Nodup := by
  have hindices : library.intentsNamed name = (library.events.zipIdx.filter fun entry =>
      entry.1.isIntent && entry.1.name.text = name).map Prod.snd := by
    rw [intentsNamed, ← List.filterMap_eq_map, ← List.filterMap_eq_filter,
      List.filterMap_filterMap]
    congr 1
    funext entry
    by_cases hentry : (entry.1.isIntent && decide (entry.1.name.text = name)) = true <;>
      simp [Option.guard, hentry]
  have hsublist : (library.intentsNamed name).Sublist (List.range' 0 library.events.length) := by
    rw [hindices, ← List.zipIdx_map_snd]
    exact List.filter_sublist.map Prod.snd
  exact hsublist.nodup (List.nodup_range' 1)

theorem only?_intentsNamed {library : Library} {name : String} {index : Nat} :
    Link.only? (library.intentsNamed name) = some index ↔ library.OnlyIntent name index := by
  have hindex : [index].Nodup := List.pairwise_singleton _ index
  rw [Link.only?_eq_some, ← List.perm_singleton,
    List.perm_ext_iff_of_nodup (nodup_intentsNamed library name) hindex]
  simp only [mem_intentsNamed, List.mem_singleton, OnlyIntent]

/-- What a reference to an intent becomes. -/
theorem linkFollows_of_follows {library : Library} {event : Event} {reference : Reference}
    (h : event.follows = some reference) : library.linkFollows event =
      some (.ofOption reference (Link.only? (library.followsCandidates reference.text))) := by
  rw [linkFollows, h, Option.map_some, Link.establish_of_bidirectional rfl]

theorem linkFollows_eq_resolved_iff {library : Library} {event : Event} {reference : Reference}
    (hlibrary : '.' ∉ library.name.text.toList) (h : event.follows = some reference)
    (index : Nat) : library.linkFollows event = some (.resolved index) ↔
      ∃ name, library.RefersTo reference.text name ∧ library.OnlyIntent name index := by
  rw [linkFollows_of_follows h, Option.some.injEq, Link.ofOption_eq_resolved]
  by_cases hrefers : ∃ name, library.RefersTo reference.text name
  · obtain ⟨name, hname⟩ := hrefers
    rw [followsCandidates_of_refersTo hlibrary hname, only?_intentsNamed]
    refine ⟨fun honly => ⟨name, hname, honly⟩, ?_⟩
    rintro ⟨other, hother, honly⟩
    rw [← only?_intentsNamed, ← followsCandidates_of_refersTo hlibrary hother,
      followsCandidates_of_refersTo hlibrary hname] at honly
    exact only?_intentsNamed.1 honly
  · rw [followsCandidates_eq_nil fun name hname => hrefers ⟨name, hname⟩]
    exact iff_of_false (by simp [Link.only?]) fun ⟨name, hname, _⟩ => hrefers ⟨name, hname⟩

end Library

/-! ## The followers of each event -/

namespace LinkedLibrary

theorem getElem?_addFollower (followers : List (List Nat)) (link : Option (Link Nat))
    (index target : Nat) :
    (addFollower followers (link, index))[target]? =
      followers[target]?.map (· ++ if link = some (.resolved target) then [index] else []) := by
  unfold addFollower
  split
  · next other hlink =>
    subst hlink
    rw [List.getElem?_modify]
    by_cases heq : other = target <;> simp [heq]
  · next hother =>
    have hlink : link ≠ some (.resolved target) := fun heq => hother target heq
    simp [hlink]

/-- The loop over the links appends to each entry the events whose links lead to it. -/
theorem getElem?_foldl_addFollower (links : List (Option (Link Nat) × Nat))
    (followers : List (List Nat)) (target : Nat) :
    (links.foldl addFollower followers)[target]? = followers[target]?.map
      (· ++ (links.filter (·.1 = some (.resolved target))).map Prod.snd) := by
  induction links generalizing followers with
  | nil => simp
  | cons link rest ih =>
    obtain ⟨link, index⟩ := link
    rw [List.foldl_cons, ih, getElem?_addFollower, Option.map_map]
    by_cases hlink : link = some (.resolved target) <;> simp [hlink, Function.comp_def]

theorem getElem?_followers (follows : List (Option (Link Nat))) (target : Nat) :
    (followers follows)[target]? = if target < follows.length then
      some ((follows.zipIdx.filter (·.1 = some (.resolved target))).map Prod.snd) else none := by
  rw [followers, getElem?_foldl_addFollower, List.getElem?_replicate]
  split <;> simp

theorem length_followers (follows : List (Option (Link Nat))) :
    (followers follows).length = follows.length := by
  apply Nat.le_antisymm
  · rw [← List.getElem?_eq_none_iff, getElem?_followers, if_neg (Nat.lt_irrefl _)]
  · rw [← Nat.not_lt]
    intro hlt
    have hnone := List.getElem?_eq_none_iff.2 (Nat.le_refl (followers follows).length)
    rw [getElem?_followers, if_pos hlt] at hnone
    cases hnone

theorem mem_followers_iff {follows : List (Option (Link Nat))} {target : Nat} {entry : List Nat}
    (h : (followers follows)[target]? = some entry) (index : Nat) :
    index ∈ entry ↔ follows[index]? = some (some (.resolved target)) := by
  rw [getElem?_followers] at h
  split at h
  · cases h
    simp [List.mem_zipIdx_iff_getElem?]
  · cases h

theorem pairwise_lt_of_mem_followers {follows : List (Option (Link Nat))} {entry : List Nat}
    (h : entry ∈ followers follows) : entry.Pairwise (· < ·) := by
  obtain ⟨target, htarget⟩ := List.mem_iff_getElem?.1 h
  rw [getElem?_followers] at htarget
  split at htarget
  · cases htarget
    have hsublist := (List.filter_sublist (p := fun link : Option (Link Nat) × Nat =>
      decide (link.1 = some (.resolved target))) (l := follows.zipIdx)).map Prod.snd
    rw [List.zipIdx_map_snd] at hsublist
    exact (List.pairwise_lt_range' 1).sublist hsublist
  · cases htarget

end LinkedLibrary

/-! ## Both ends -/

namespace Library

/-- What the links of a library have to be: a link for each reference to a single intent, kept at
both ends, and a report for every other reference. -/
structure FollowsBothWays (library : Library) (linked : LinkedLibrary) : Prop where
  length_follows : linked.follows.length = library.events.length
  length_followedBy : linked.followedBy.length = library.events.length
  /-- An event is among the followers of another exactly if it follows that one. -/
  inverse : ∀ (i : Nat) (followers : List Nat), linked.followedBy[i]? = some followers →
    ∀ j : Nat, j ∈ followers ↔ linked.follows[j]? = some (some (Link.resolved i))
  increasing : ∀ followers ∈ linked.followedBy, followers.Pairwise (· < ·)
  /-- Every link leads to an event that has an entry for its followers. -/
  in_bounds : ∀ j i : Nat, linked.follows[j]? = some (some (Link.resolved i)) →
    i < linked.followedBy.length
  no_link : ∀ (j : Nat) (event : Event), library.events[j]? = some event →
    (linked.follows[j]? = some none ↔ event.follows = none)
  resolved : ∀ (j : Nat) (event : Event) (reference : Reference), library.events[j]? = some event →
    event.follows = some reference →
    ∀ i : Nat, linked.follows[j]? = some (some (Link.resolved i)) ↔
      ∃ name, library.RefersTo reference.text name ∧ library.OnlyIntent name i
  unresolved : ∀ (j : Nat) (event : Event) (reference : Reference),
    library.events[j]? = some event → event.follows = some reference →
    (∀ i : Nat, linked.follows[j]? ≠ some (some (Link.resolved i))) →
    linked.follows[j]? = some (some (Link.unresolved reference))
  diagnostics : Diagnostic.StablySorted
    ((linked.follows.filterMap (·.bind Link.unresolved?)).map
      (Diagnostic.undefinedReference library.location))
    linked.diagnostics

theorem getElem?_follows_link {library : Library} {j : Nat} {event : Event}
    (h : library.events[j]? = some event) :
    library.link.follows[j]? = some (library.linkFollows event) := by
  simp [link, h]

/-- A link leads to an intent of the library. -/
theorem lt_length_of_linkFollows {library : Library} {event : Event} {i : Nat}
    (hlibrary : '.' ∉ library.name.text.toList)
    (h : library.linkFollows event = some (.resolved i)) : i < library.events.length := by
  cases hfollows : event.follows with
  | none => simp [linkFollows, hfollows] at h
  | some reference =>
    obtain ⟨name, -, honly⟩ := (linkFollows_eq_resolved_iff hlibrary hfollows i).1 h
    obtain ⟨target, htarget, -⟩ := (honly i).2 rfl
    exact (List.getElem?_eq_some_iff.1 htarget).1

theorem stablySorted_diagnostics_link (library : Library) :
    Diagnostic.StablySorted
      ((library.link.follows.filterMap (·.bind Link.unresolved?)).map
        (Diagnostic.undefinedReference library.location))
      library.link.diagnostics := by
  have hreports : (library.link.follows.filterMap (·.bind Link.unresolved?)).map
        (Diagnostic.undefinedReference library.location) =
      library.link.follows.flatMap fun link =>
        link.toList.flatMap (Diagnostic.ofLink library.location .followedIntent) := by
    rw [List.filterMap_eq_flatMap_toList, List.map_flatMap]
    congr 1
    funext link
    cases link with
    | none => rfl
    | some link =>
      have hrelation : Relation.followedIntent ≠ .transitionState := nofun
      rw [Option.toList_some, List.flatMap_singleton, Diagnostic.ofLink_of_ne hrelation]
      rfl
  rw [hreports]
  exact Diagnostic.stablySorted_inSourceOrder _

theorem followsBothWays_link (library : Library) (h : '.' ∉ library.name.text.toList) :
    library.FollowsBothWays library.link where
  length_follows := List.length_map _
  length_followedBy := (LinkedLibrary.length_followers _).trans (List.length_map _)
  inverse _ _ := LinkedLibrary.mem_followers_iff
  increasing _ := LinkedLibrary.pairwise_lt_of_mem_followers
  in_bounds j i hlink := by
    have hevents : library.link.followedBy.length = library.events.length :=
      (LinkedLibrary.length_followers _).trans (List.length_map _)
    obtain ⟨event, -, hevent⟩ : ∃ event, library.events[j]? = some event ∧
        library.linkFollows event = some (.resolved i) := by
      simpa [link] using hlink
    rw [hevents]
    exact lt_length_of_linkFollows h hevent
  no_link j event hevent := by
    rw [getElem?_follows_link hevent, Option.some.injEq, linkFollows, Option.map_eq_none_iff]
  resolved j event reference hevent hfollows i := by
    rw [getElem?_follows_link hevent, Option.some.injEq]
    exact linkFollows_eq_resolved_iff h hfollows i
  unresolved j event reference hevent hfollows hother := by
    rw [getElem?_follows_link hevent, linkFollows_of_follows hfollows] at hother ⊢
    cases hfound : Link.only? (library.followsCandidates reference.text) with
    | none => rfl
    | some i => exact absurd (by rw [hfound]; rfl) (hother i)
  diagnostics := stablySorted_diagnostics_link library

/-! ### A library with every kind of reference -/

/-- An intent on a line of its own. -/
def sampleIntent (line : Nat) (name : String) (follows : Option String) : Event where
  name := ⟨name, ⟨⟨line, 7⟩, ⟨line, 7⟩⟩⟩
  intent := some { follows := follows.map fun text => ⟨text, ⟨⟨line, 20⟩, ⟨line, 20⟩⟩⟩ }

/-- An event shares the name of an intent, two intents share one, and references are to the intent
itself, to an earlier and to a later one, qualified, ambiguous and too long. -/
def sampleLibrary : Library where
  name := ⟨"Talk", .zero⟩
  events := [
    { name := ⟨"Greet", .zero⟩ },
    sampleIntent 1 "Greet" (some "Greet"),
    sampleIntent 2 "Ask" (some "Talk.Greet"),
    sampleIntent 3 "Ask" (some " Part "),
    sampleIntent 4 "Part" (some "Ask"),
    sampleIntent 5 "Stay" (some "Talk.Part.Greet")]
  location := "talk.intent"

theorem followsBothWays_link_sampleLibrary :
    '.' ∉ sampleLibrary.name.text.toList ∧ sampleLibrary.FollowsBothWays sampleLibrary.link ∧
      sampleLibrary.link.followedBy = [[], [1, 2], [], [], [3], []] :=
  ⟨by decide, followsBothWays_link sampleLibrary (by decide), by decide +kernel⟩

end Library

end CrossModel
