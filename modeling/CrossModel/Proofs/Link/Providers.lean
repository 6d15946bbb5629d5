import CrossModel.Proofs.Link.Follows
import CrossModel.Proofs.Link.QualifiedNames

/-!
# References to providers

A reference to a provider is two names without dots and a dot between them, with any blanks around.
It leads to one provider or to none: the first platform that goes by the name in front of the dot
decides alone, and of its providers the first one with the name behind the dot is taken. A later
platform is not asked, even if the first one has no such provider.
-/

namespace CrossModel

universe u

/-! ## The first of a list -/

/-- The item at this index is the first in the list that fulfils a condition. -/
structure FirstAt {α : Type u} (condition : α → Prop) (items : List α) (index : Nat) (item : α) :
    Prop where
  found : items[index]? = some item
  holds : condition item
  first : ∀ earlier < index, ∀ other, items[earlier]? = some other → ¬condition other

section FirstAt

variable {α : Type u} {accepts : α → Bool} {items : List α} {item : α}

theorem FirstAt.le {condition : α → Prop} {index other : Nat} {otherItem : α}
    (h : FirstAt condition items index item) (hother : items[other]? = some otherItem)
    (hholds : condition otherItem) : index ≤ other := by
  apply Nat.le_of_not_lt
  intro hless
  exact h.first other hless otherItem hother hholds

theorem FirstAt.unique {condition : α → Prop} {index other : Nat} {otherItem : α}
    (h : FirstAt condition items index item)
    (hother : FirstAt condition items other otherItem) : index = other ∧ item = otherItem := by
  obtain rfl : index = other :=
    Nat.le_antisymm (h.le hother.found hother.holds) (hother.le h.found h.holds)
  exact ⟨rfl, Option.some.inj (h.found.symm.trans hother.found)⟩

theorem findIdx?_eq_some_iff_firstAt {index : Nat} :
    items.findIdx? accepts = some index ↔
      ∃ item, FirstAt (fun item => accepts item = true) items index item := by
  rw [List.findIdx?_eq_some_iff_getElem]
  constructor
  · rintro ⟨hindex, haccepts, hearlier⟩
    refine ⟨items[index], List.getElem?_eq_getElem hindex, haccepts, ?_⟩
    intro earlier hless other hother
    obtain ⟨hbound, rfl⟩ := List.getElem?_eq_some_iff.1 hother
    exact hearlier earlier hless
  · rintro ⟨item, hfound, haccepts, hfirst⟩
    obtain ⟨hindex, rfl⟩ := List.getElem?_eq_some_iff.1 hfound
    refine ⟨hindex, haccepts, fun earlier hless => ?_⟩
    exact hfirst earlier hless _ (List.getElem?_eq_getElem (Nat.lt_trans hless hindex))

theorem find?_eq_some_iff_firstAt :
    items.find? accepts = some item ↔
      ∃ index, FirstAt (fun item => accepts item = true) items index item := by
  rw [List.find?_eq_some_iff_getElem]
  constructor
  · rintro ⟨haccepts, index, hindex, rfl, hearlier⟩
    refine ⟨index, List.getElem?_eq_getElem hindex, haccepts, ?_⟩
    intro earlier hless other hother
    obtain ⟨hbound, rfl⟩ := List.getElem?_eq_some_iff.1 hother
    simpa using hearlier earlier hless
  · rintro ⟨index, hfound, haccepts, hfirst⟩
    obtain ⟨hindex, rfl⟩ := List.getElem?_eq_some_iff.1 hfound
    refine ⟨haccepts, index, hindex, rfl, fun earlier hless => ?_⟩
    simpa using hfirst earlier hless _ (List.getElem?_eq_getElem (Nat.lt_trans hless hindex))

end FirstAt

/-! ## Texts of qualified names -/

/-- Every character is blank. -/
def AllBlank (cs : List Char) : Prop :=
  ∀ c ∈ cs, isBlank c = true

/-- To trim a text is to find what stands between the blanks at its ends. -/
theorem trimBlanks_eq_iff {cs core : List Char} :
    trimBlanks cs = core ↔
      (∀ c ∈ core.head?, isBlank c = false) ∧ (∀ c ∈ core.getLast?, isBlank c = false) ∧
        ∃ before behind, AllBlank before ∧ AllBlank behind ∧ cs = before ++ core ++ behind := by
  constructor
  · rintro rfl
    have htrim : trimBlanks cs = (cs.dropWhile isBlank).rdropWhile isBlank := rfl
    rw [htrim]
    refine ⟨?_, ?_, cs.takeWhile isBlank, (cs.dropWhile isBlank).rtakeWhile isBlank, ?_, ?_, ?_⟩
    · intro c hc
      obtain ⟨behind, hbehind⟩ := List.rdropWhile_prefix isBlank (cs.dropWhile isBlank)
      have hhead : (cs.dropWhile isBlank).head? = some c := by
        rw [← hbehind, List.head?_append, Option.mem_def.1 hc, Option.some_or]
      have hnot := List.head?_dropWhile_not isBlank cs
      rw [hhead] at hnot
      exact hnot
    · intro c hc
      obtain ⟨hne, rfl⟩ := List.mem_getLast?_eq_getLast hc
      simpa using List.rdropWhile_last_not isBlank (cs.dropWhile isBlank) hne
    · exact fun c hc => List.mem_takeWhile_imp hc
    · exact fun c hc => List.mem_rtakeWhile_imp hc
    · rw [List.append_assoc, List.rdropWhile_append_rtakeWhile,
        List.takeWhile_append_dropWhile]
  · rintro ⟨hhead, hlast, before, behind, hbefore, hbehind, rfl⟩
    have hback : ∀ c ∈ behind.reverse, isBlank c = true := by
      simpa [AllBlank] using hbehind
    rw [trimBlanks, List.append_assoc, List.dropWhile_append_of_pos hbefore]
    cases core with
    | nil => simp [List.dropWhile_eq_nil_iff.2 hbehind]
    | cons c core =>
      have hc : isBlank c = false := hhead c rfl
      have hend : (c :: core).rdropWhile isBlank = c :: core := by
        rw [List.rdropWhile_eq_self_iff]
        intro hne
        rw [hlast _ (List.getLast?_eq_some_getLast hne)]
        exact Bool.false_ne_true
      rw [List.cons_append, List.dropWhile_cons_of_neg (by simp [hc]), ← List.cons_append,
        List.reverse_append, List.dropWhile_append_of_pos hback]
      exact hend

namespace QualifiedName

/-- The text spells this name: two names without dots and the dot between them, with nothing but
blanks around. -/
structure SpelledBy (name : QualifiedName) (text : String) : Prop where
  platform : Qualifies name.platform
  provider_ne_empty : name.provider ≠ ""
  provider_no_dot : '.' ∉ name.provider.toList
  provider_ends : ∀ c ∈ name.provider.toList.getLast?, isBlank c = false
  surrounded : ∃ before behind, AllBlank before ∧ AllBlank behind ∧
    text.toList = before ++ name.text.toList ++ behind

theorem trimmed_eq_text_iff {name : QualifiedName} {text : String}
    (hplatform : name.platform ≠ "") (hprovider : name.provider ≠ "") :
    trimmed text = name.text ↔
      (∀ c ∈ name.platform.toList.head?, isBlank c = false) ∧
      (∀ c ∈ name.provider.toList.getLast?, isBlank c = false) ∧
      ∃ before behind, AllBlank before ∧ AllBlank behind ∧
        text.toList = before ++ name.text.toList ++ behind := by
  have hchars : name.text.toList = name.platform.toList ++ '.' :: name.provider.toList := by
    simp [QualifiedName.text]
  have hhead : name.text.toList.head? = name.platform.toList.head? := by
    rw [hchars, List.head?_append_of_ne_nil _ (by simpa using hplatform)]
  have hlast : name.text.toList.getLast? = name.provider.toList.getLast? := by
    rw [hchars, List.getLast?_append_of_ne_nil _ (by simp), ← List.singleton_append,
      List.getLast?_append_of_ne_nil _ (by simpa using hprovider)]
  rw [trimmed, ← String.toList_inj, String.toList_ofList, trimBlanks_eq_iff, hhead, hlast]

/-- To parse a text is to find the name that it spells. -/
theorem parse?_eq_some_iff {text : String} {name : QualifiedName} :
    parse? text = some name ↔ name.SpelledBy text := by
  unfold parse?
  constructor
  · intro h
    split at h
    · next platform provider hsegments =>
      obtain ⟨-, htext, hparts⟩ := segmentsOf_eq_iff.1 hsegments
      split at h
      · cases h
      · next hne =>
        cases h
        obtain ⟨hplatform, hprovider⟩ : platform ≠ "" ∧ provider ≠ "" := by simpa using hne
        have htrimmed : trimmed text = (QualifiedName.mk platform provider).text := by
          rw [← String.toList_inj, htext]
          simp [QualifiedName.text, List.intercalate]
        obtain ⟨hstarts, hends, hsurrounded⟩ :=
          (trimmed_eq_text_iff hplatform hprovider).1 htrimmed
        exact {
          platform := ⟨hplatform, hparts platform (by simp), hstarts⟩
          provider_ne_empty := hprovider
          provider_no_dot := hparts provider (by simp)
          provider_ends := hends
          surrounded := hsurrounded }
    · cases h
  · intro h
    have htrimmed : trimmed text = name.text :=
      (trimmed_eq_text_iff h.platform.ne_empty h.provider_ne_empty).2
        ⟨h.platform.starts, h.provider_ends, h.surrounded⟩
    have hsegments : segmentsOf '.' (trimmed text) = [name.platform, name.provider] := by
      rw [segmentsOf_eq_iff, htrimmed]
      simp [QualifiedName.text, h.platform.no_dot, h.provider_no_dot, List.intercalate]
    rw [hsegments]
    simp [h.platform.ne_empty, h.provider_ne_empty]

end QualifiedName

/-! ## Look-ups -/

/-- A platform in scope goes by its own name and by its alias. -/
def Scoped.GoesBy (entry : Scoped Platform) (name : String) : Prop :=
  entry.shared.content.name.text = name ∨ entry.aliasName = some name

theorem Scoped.answersTo_iff {entry : Scoped Platform} {name : String} :
    entry.answersTo name = true ↔ entry.GoesBy name := by
  simp [answersTo, GoesBy]

namespace Scope

/-- The platform in scope that decides on a name: the first one that goes by it. -/
def Decides (scope : Scope) (name : String) (platform : Shared Platform) : Prop :=
  ∃ position entry, FirstAt (·.GoesBy name) scope.platforms position entry ∧
    entry.shared = platform

/-- The handle is for the provider with a qualified name: the first one with the name behind the
dot, in the platform that decides on the name in front of it. -/
structure Provides (scope : Scope) (name : QualifiedName) (handle : ProviderHandle) : Prop where
  platform : scope.Decides name.platform handle.platform
  provider : ∃ provider, FirstAt (·.name.text = name.provider)
    handle.platform.content.providers handle.index provider

theorem platform?_eq_some_iff {scope : Scope} {name : String} {platform : Shared Platform} :
    scope.platform? name = some platform ↔ scope.Decides name platform := by
  simp only [platform?, Option.map_eq_some_iff, find?_eq_some_iff_firstAt, Scoped.answersTo_iff,
    Decides]
  constructor
  · rintro ⟨entry, ⟨position, hfirst⟩, hshared⟩
    exact ⟨position, entry, hfirst, hshared⟩
  · rintro ⟨position, entry, hfirst, hshared⟩
    exact ⟨entry, ⟨position, hfirst⟩, hshared⟩

theorem platform?_eq_none_iff {scope : Scope} {name : String} :
    scope.platform? name = none ↔ ∀ entry ∈ scope.platforms, ¬entry.GoesBy name := by
  simp [platform?, Scoped.answersTo_iff]

theorem providerNamed?_eq_some_iff {scope : Scope} {name : QualifiedName}
    {handle : ProviderHandle} :
    scope.providerNamed? name = some handle ↔ scope.Provides name handle := by
  simp only [providerNamed?, Option.bind_eq_bind, Option.bind_eq_some_iff, platform?_eq_some_iff,
    findIdx?_eq_some_iff_firstAt, decide_eq_true_eq]
  constructor
  · rintro ⟨platform, hplatform, index, hprovider, hhandle⟩
    cases hhandle
    exact ⟨hplatform, hprovider⟩
  · rintro ⟨hplatform, hprovider⟩
    exact ⟨handle.platform, hplatform, handle.index, hprovider, rfl⟩

/-- A qualified name leads nowhere if no platform goes by its first part, or if the one that decides
on it has no provider with the second part. -/
theorem providerNamed?_eq_none_iff {scope : Scope} {name : QualifiedName} :
    scope.providerNamed? name = none ↔
      (∀ entry ∈ scope.platforms, ¬entry.GoesBy name.platform) ∨
      ∃ platform, scope.Decides name.platform platform ∧
        ∀ provider ∈ platform.content.providers, provider.name.text ≠ name.provider := by
  rw [← platform?_eq_none_iff]
  simp only [← platform?_eq_some_iff, providerNamed?, Option.bind_eq_bind]
  cases scope.platform? name.platform with
  | none => simp
  | some platform =>
    have hmissing : platform.content.providers.findIdx? (·.name.text = name.provider) = none ↔
        ∀ provider ∈ platform.content.providers, provider.name.text ≠ name.provider := by
      simp [List.findIdx?_eq_none_iff]
    simp only [Option.bind_some, reduceCtorEq, false_or, Option.some.injEq, exists_eq_left',
      ← hmissing]
    cases platform.content.providers.findIdx? (·.name.text = name.provider) <;> simp

/-- The provider that a handle was found for is there, under the name that was looked for. -/
theorem Provides.provider? {scope : Scope} {name : QualifiedName} {handle : ProviderHandle}
    (h : scope.Provides name handle) :
    ∃ provider, handle.provider? = some provider ∧ provider.name.text = name.provider := by
  obtain ⟨provider, hfirst⟩ := h.provider
  exact ⟨provider, hfirst.found, hfirst.holds⟩

theorem provider_of_parse? {text : String} {name : QualifiedName}
    (h : QualifiedName.parse? text = some name) (scope : Scope) :
    scope.provider text = .ok (scope.providerNamed? name) := by
  rw [provider, QualifiedName.parse, h]
  rfl

theorem provider_of_malformed {text : String} (h : QualifiedName.parse? text = none)
    (scope : Scope) : scope.provider text = .error (.malformedName text) := by
  rw [provider, QualifiedName.parse, h]
  rfl

/-- References to providers lead to exactly one place or to none. A text that spells no qualified
name is reported as it is. Otherwise the first platform that goes by the first part decides: the
reference leads to its first provider with the name of the second part, which is there, or nowhere
if it has none, whatever later platforms have. -/
theorem provider_leads_to_first_match (scope : Scope) (text : String) :
    (scope.provider text = .error (.malformedName text) ↔
      ∀ name : QualifiedName, ¬name.SpelledBy text) ∧
    ∀ name : QualifiedName, name.SpelledBy text →
      (∀ handle, scope.provider text = .ok (some handle) ↔ scope.Provides name handle) ∧
      (∀ handle, scope.Provides name handle →
        ∃ provider, handle.provider? = some provider ∧ provider.name.text = name.provider) ∧
      (scope.provider text = .ok none ↔
        (∀ entry ∈ scope.platforms, ¬entry.GoesBy name.platform) ∨
        ∃ platform, scope.Decides name.platform platform ∧
          ∀ provider ∈ platform.content.providers, provider.name.text ≠ name.provider) := by
  constructor
  · simp only [← QualifiedName.parse?_eq_some_iff]
    cases hparse : QualifiedName.parse? text with
    | none => simp [provider_of_malformed hparse]
    | some name => simp [provider_of_parse? hparse]
  · intro name hname
    rw [provider_of_parse? (QualifiedName.parse?_eq_some_iff.2 hname)]
    refine ⟨?_, fun handle hhandle => hhandle.provider?, ?_⟩
    · intro handle
      rw [Except.ok.injEq, providerNamed?_eq_some_iff]
    · rw [Except.ok.injEq, providerNamed?_eq_none_iff]

/-- A platform under the alias `chat` without a clock, and behind it one named `chat` that has a
clock. -/
def bellPlatform : Shared Platform :=
  ⟨0, { name := ⟨"Base", .zero⟩, providers := [{ name := ⟨"Bell", .zero⟩ }] }⟩

def contestedScope : Scope where
  platforms := [⟨some "chat", bellPlatform, .declaration⟩,
    ⟨none, ⟨1, { name := ⟨"chat", .zero⟩, providers := [{ name := ⟨"Clock", .zero⟩ }] }⟩,
      .declaration⟩]

theorem provider_leads_to_first_match_contestedScope :
    (QualifiedName.mk "chat" "Clock").SpelledBy " chat.Clock\t" ∧
      contestedScope.provider " chat.Clock\t" = .ok none ∧
      (QualifiedName.mk "chat" "Bell").SpelledBy "chat.Bell" ∧
      contestedScope.provider "chat.Bell" = .ok (some ⟨bellPlatform, 0⟩) := by
  have hclock : (QualifiedName.mk "chat" "Clock").SpelledBy " chat.Clock\t" :=
    QualifiedName.parse?_eq_some_iff.1 (by decide +kernel)
  have hbell : (QualifiedName.mk "chat" "Bell").SpelledBy "chat.Bell" :=
    QualifiedName.parse?_eq_some_iff.1 (by decide +kernel)
  have hdecides : contestedScope.Decides "chat" bellPlatform :=
    platform?_eq_some_iff.1 (by decide +kernel)
  have hprovides : contestedScope.Provides ⟨"chat", "Bell"⟩ ⟨bellPlatform, 0⟩ :=
    providerNamed?_eq_some_iff.1 (by decide +kernel)
  obtain ⟨-, -, hnone⟩ := (provider_leads_to_first_match contestedScope _).2 _ hclock
  obtain ⟨hsome, -, -⟩ := (provider_leads_to_first_match contestedScope _).2 _ hbell
  refine ⟨hclock, hnone.2 (.inr ⟨bellPlatform, hdecides, ?_⟩), hbell, (hsome _).2 hprovides⟩
  decide +kernel

end Scope

end CrossModel
