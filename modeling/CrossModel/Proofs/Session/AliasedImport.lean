import CrossModel.Proofs.Document.Location
import CrossModel.Proofs.Link.QualifiedNames
import CrossModel.Proofs.Session.BundleEntries
import CrossModel.Proofs.Session.Run

/-!
# Imports under an alias

An alias changes where an imported file is located and by which names it can be referred to, and
nothing else. Imported alone with and without an alias, a platform gives scopes in which each
reference to a provider leads to equal providers, and a failing import fails for the same reason.
-/

namespace CrossModel

/-! ## Documents at other locations -/

theorem Document.ofKind_relocate (kind : DefinitionKind) (document : Document)
    (location : String) :
    (document.relocate location).ofKind kind =
      (document.ofKind kind).map (Document.relocate location) := by
  unfold ofKind
  rw [kind_relocate]
  split <;> rfl

/-- The alias of an import decides on the location of its document only. -/
theorem FileSystem.importedDocument_relocate (files : FileSystem) (kind : DefinitionKind)
    (first second : ImportKey) (file : Path) :
    files.importedDocument kind second file =
      (files.importedDocument kind first file).map
        (Document.relocate (second.location kind file)) := by
  unfold importedDocument loadDocument
  cases files.readText file with
  | error cause => rfl
  | ok source =>
    simp only
    rw [Document.parse_relocate source (first.location kind file)]
    cases Document.parse source (first.location kind file) with
    | error cause => rfl
    | ok document => exact Document.ofKind_relocate kind document _

/-! ## Providers of one platform -/

namespace ProviderHandle

/-- Two handles are for equal providers. -/
def Agrees (a b : ProviderHandle) : Prop :=
  ∃ provider, a.provider? = some provider ∧ b.provider? = some provider

/-- The first provider of a platform with this name. -/
def ofPlatform? (platform : Shared Platform) (name : String) : Option ProviderHandle :=
  (platform.content.providers.findIdx? (·.name.text = name)).map (mk platform)

/-- Platforms with the same providers give equal ones. -/
theorem rel_agrees_ofPlatform? {first second : Shared Platform}
    (h : first.content.providers = second.content.providers) (name : String) :
    Option.Rel Agrees (ofPlatform? first name) (ofPlatform? second name) := by
  unfold ofPlatform?
  rw [← h]
  cases hindex : first.content.providers.findIdx? (·.name.text = name) with
  | none => exact .none
  | some index =>
    obtain ⟨hlt, -⟩ := List.findIdx?_eq_some_iff_getElem.1 hindex
    have hprovider := List.getElem?_eq_getElem hlt
    have hother : second.content.providers[index]? = some first.content.providers[index] := by
      rw [← h]
      exact hprovider
    exact .some ⟨first.content.providers[index], hprovider, hother⟩

end ProviderHandle

/-- In a scope with one platform, each name that it answers to leads to its providers. -/
theorem Scope.provider_of_answersTo {entry : Scoped Platform} {name : String}
    (hname : Qualifies name) (hentry : entry.answersTo name = true) (behind : String) :
    (provider { platforms := [entry] } (name ++ "." ++ behind)).toOption =
      (QualifiedName.providerPart? behind).map (ProviderHandle.ofPlatform? entry.shared) := by
  have hplatform : platform? { platforms := [entry] } name = some entry.shared := by
    simp [platform?, hentry]
  rw [provider_append _ hname]
  congr 1
  funext part
  simp [providerNamed?, hplatform, ProviderHandle.ofPlatform?, Option.map_eq_bind]

/-- A platform under an alias is referred to by the alias as by its name, and by its name as without
the alias. -/
theorem Scope.provider_of_same_providers {aliasName : String} {named unnamed : Shared Platform}
    (halias : Qualifies aliasName) (hname : Qualifies named.content.name.text)
    (hsame : unnamed.content.name = named.content.name)
    (hproviders : named.content.providers = unnamed.content.providers) (origin : ScopeOrigin)
    (behind : String) :
    let first : Scope := { platforms := [⟨some aliasName, named, origin⟩] }
    let second : Scope := { platforms := [⟨none, unnamed, origin⟩] }
    (first.provider (aliasName ++ "." ++ behind)).toOption =
        (first.provider (named.content.name.text ++ "." ++ behind)).toOption ∧
      Option.Rel (Option.Rel ProviderHandle.Agrees)
        (first.provider (named.content.name.text ++ "." ++ behind)).toOption
        (second.provider (named.content.name.text ++ "." ++ behind)).toOption := by
  intro first second
  rw [provider_of_answersTo halias (by simp [Scoped.answersTo]),
    provider_of_answersTo hname (by simp [Scoped.answersTo]),
    provider_of_answersTo hname (by simp [Scoped.answersTo, hsame])]
  refine ⟨rfl, ?_⟩
  cases QualifiedName.providerPart? behind with
  | none => exact .none
  | some part => exact .some (ProviderHandle.rel_agrees_ofPlatform? hproviders part)

namespace Session

variable {session : Session} {files : FileSystem} {kind : DefinitionKind}

/-- Imports of one path lead to the same document up to its location, or fail for the same reason.
-/
theorem loadedDocument_of_path_eq (session : Session) (files : FileSystem)
    (kind : DefinitionKind) {first second : ImportKey} (h : first.path = second.path)
    (location : String) :
    (session.loadedDocument files kind first).map (Document.relocate location) =
      (session.loadedDocument files kind second).map (Document.relocate location) := by
  unfold loadedDocument
  rw [h]
  split
  · rfl
  · split
    · rfl
    · next file hfile =>
      rw [files.importedDocument_relocate kind first second]
      cases files.importedDocument kind first file with
      | error reason => rfl
      | ok document => simp [Except.map]

/-- What is loaded was read from a text. -/
theorem parse_of_loadedDocument {key : ImportKey} {document : Document}
    (hbundle : session.bundle = none)
    (h : session.loadedDocument files kind key = .ok document) :
    ∃ source location, Document.parse source location = .ok document := by
  have hofKind : ∀ found : Document, found.ofKind kind = .ok document → found = document := by
    intro found hfound
    unfold Document.ofKind at hfound
    split at hfound
    · exact Except.ok.inj hfound
    · cases hfound
  unfold loadedDocument at h
  split at h
  · next found hfound =>
    rw [hofKind found h] at hfound
    obtain ⟨-, text, hparse⟩ := parse_of_bundledDocument? hbundle hfound
    exact ⟨text, _, hparse⟩
  · split at h
    · cases h
    · next file hfile =>
      unfold FileSystem.importedDocument FileSystem.loadDocument at h
      cases hread : files.readText file with
      | error cause =>
        rw [hread] at h
        cases h
      | ok source =>
        rw [hread] at h
        cases hparse : Document.parse source (key.location kind file) with
        | error cause =>
          simp only [hparse] at h
          cases h
        | ok found =>
          simp only [hparse] at h
          rw [hofKind found h] at hparse
          exact ⟨source, _, hparse⟩

/-! ## Scopes of one import -/

theorem known?_start (settings : Settings) (declaration : ImportDeclaration) :
    (start settings).known? declaration = none := by
  rw [known?_eq_none_iff]
  refine ⟨?_, Catalog.get?_empty _ _⟩
  unfold aliased?
  cases declaration.key.aliasName with
  | none => rfl
  | some name => exact Catalog.get?_empty _ _

/-- The scope of one import in a new session holds the platform that loading leads to, or the reason
why loading fails. -/
theorem importScope_start (settings : Settings) (files : FileSystem) (path : String)
    (aliasName : Option String) (span : Span) :
    let declaration : ImportDeclaration := ⟨.platform, path, aliasName, span⟩
    (∃ shared,
      (start settings).loadedDocument files .platform declaration.key =
        .ok (.platform shared.content) ∧
      ((start settings).importScope files [declaration]).value =
        { platforms := [⟨effectiveAlias aliasName, shared, .declaration⟩] }) ∨
    ∃ reason,
      (start settings).loadedDocument files .platform declaration.key = .error reason ∧
      ((start settings).importScope files [declaration]).value =
        { failures := [⟨declaration, .unresolvedImport declaration.key reason⟩] } := by
  intro declaration
  have hscope : ((start settings).importScope files [declaration]).value =
      pushAliases ((start settings).resolve files declaration).session.aliases
        (pushResult .empty (declaration, ((start settings).resolve files declaration).value)) := rfl
  rw [hscope, (grown_resolve (start settings) files declaration).aliases]
  rcases resolve_cases (start settings) files declaration with
    ⟨definition, hknown, -⟩ | ⟨definition, -, hkind, hloaded, hresolve⟩ |
      ⟨reason, -, hloaded, hresolve⟩
  · rw [known?_start] at hknown
    cases hknown
  · left
    cases definition with
    | library shared => cases hkind
    | platform shared =>
      refine ⟨shared, hloaded, ?_⟩
      have halias : effectiveAlias declaration.key.aliasName = effectiveAlias aliasName := by
        simp [declaration, ImportDeclaration.key, ImportKey.of, effectiveAlias]
      rw [hresolve, ← halias]
      rfl
  · right
    refine ⟨reason, hloaded, ?_⟩
    rw [hresolve]
    rfl

/-- Importing a platform under an alias changes its names and its location only. The import fails
for the same reason with and without the alias; or both times the same platform is imported, and
under its alias and its name alike it gives the providers that it gives under its name without the
alias. -/
theorem aliased_import_changes_name_only (settings : Settings) (files : FileSystem) (path : String)
    {aliasName : String} (halias : Qualifies aliasName) (span otherSpan : Span) :
    let aliased : ImportDeclaration := ⟨.platform, path, some aliasName, span⟩
    let plain : ImportDeclaration := ⟨.platform, path, none, otherSpan⟩
    let first := ((start settings).importScope files [aliased]).value
    let second := ((start settings).importScope files [plain]).value
    (∃ reason,
      first = { failures := [⟨aliased, .unresolvedImport aliased.key reason⟩] } ∧
      second = { failures := [⟨plain, .unresolvedImport plain.key reason⟩] }) ∨
    ∃ named unnamed : Shared Platform,
      first = { platforms := [⟨some aliasName, named, .declaration⟩] } ∧
      second = { platforms := [⟨none, unnamed, .declaration⟩] } ∧
      unnamed.content = { named.content with location := unnamed.content.location } ∧
      ∀ behind,
        (first.provider (aliasName ++ "." ++ behind)).toOption =
          (first.provider (named.content.name.text ++ "." ++ behind)).toOption ∧
        Option.Rel (Option.Rel ProviderHandle.Agrees)
          (first.provider (named.content.name.text ++ "." ++ behind)).toOption
          (second.provider (named.content.name.text ++ "." ++ behind)).toOption := by
  intro aliased plain first second
  have hpath : aliased.key.path = plain.key.path := rfl
  have hsame := loadedDocument_of_path_eq (start settings) files .platform hpath
  rcases importScope_start settings files path (some aliasName) span with
    ⟨named, hloaded, hfirst⟩ | ⟨reason, hloaded, hfirst⟩
  · rcases importScope_start settings files path none otherSpan with
      ⟨unnamed, hother, hsecond⟩ | ⟨reason, hother, hsecond⟩
    · right
      have hlocated := hsame unnamed.content.location
      rw [hloaded, hother] at hlocated
      have hcontent : unnamed.content =
          { named.content with location := unnamed.content.location } :=
        (Document.platform.inj (Except.ok.inj hlocated)).symm
      have hnames : unnamed.content.name = named.content.name := by
        rw [hcontent]
      have hproviders : named.content.providers = unnamed.content.providers := by
        rw [hcontent]
      obtain ⟨source, location, hparse⟩ := parse_of_loadedDocument rfl hloaded
      have hname := Platform.qualifies_name hparse
      have hgiven : effectiveAlias (some aliasName) = some aliasName := by
        simp [effectiveAlias, halias.ne_empty]
      rw [hgiven] at hfirst
      refine ⟨named, unnamed, hfirst, hsecond, hcontent, ?_⟩
      intro behind
      rw [show first = _ from hfirst, show second = _ from hsecond]
      exact Scope.provider_of_same_providers halias hname hnames hproviders .declaration behind
    · have hlocated := hsame ""
      rw [hloaded, hother] at hlocated
      cases hlocated
  · have hlocated := hsame ""
    rw [hloaded] at hlocated
    rcases importScope_start settings files path none otherSpan with
      ⟨unnamed, hother, hsecond⟩ | ⟨otherReason, hother, hsecond⟩
    · rw [hother] at hlocated
      cases hlocated
    · rw [hother] at hlocated
      cases hlocated
      exact .inl ⟨reason, hfirst, hsecond⟩

/-- A provider of `Base`, referred to under the alias `base`, under the name next to the alias and
under the name alone. -/
theorem aliased_import_changes_name_only_base :
    let first := ((start sampleSettings).importScope sampleFiles
      [⟨.platform, "Base.platform", some "base", .zero⟩]).value
    let second := ((start sampleSettings).importScope sampleFiles
      [⟨.platform, "Base.platform", none, .zero⟩]).value
    (first.provider ("base" ++ "." ++ "Clock")).toOption.map Option.isSome = some true ∧
      (first.provider ("base" ++ "." ++ "Clock")).toOption =
        (first.provider ("Base" ++ "." ++ "Clock")).toOption ∧
      Option.Rel (Option.Rel ProviderHandle.Agrees)
        (first.provider ("Base" ++ "." ++ "Clock")).toOption
        (second.provider ("Base" ++ "." ++ "Clock")).toOption := by
  intro first second
  have halias : Qualifies "base" := by
    refine ⟨by simp, by simp, ?_⟩
    intro c hc
    cases hc
    decide
  obtain ⟨hfound, hclock⟩ : first.platforms.map (·.shared.content.name.text) = ["Base"] ∧
      (first.provider ("base" ++ "." ++ "Clock")).toOption.map Option.isSome = some true := by
    decide +kernel
  rcases aliased_import_changes_name_only sampleSettings sampleFiles "Base.platform" halias
    .zero .zero with ⟨reason, hfirst, -⟩ | ⟨named, unnamed, hfirst, -, -, hproviders⟩
  · have hnone : first.platforms = [] := congrArg Scope.platforms hfirst
    rw [hnone] at hfound
    cases hfound
  · have hone : first.platforms = [⟨some "base", named, .declaration⟩] :=
      congrArg Scope.platforms hfirst
    rw [hone] at hfound
    have hname : named.content.name.text = "Base" := by simpa using hfound
    have hbehind := hproviders "Clock"
    rw [hname] at hbehind
    exact ⟨hclock, hbehind⟩

end Session

end CrossModel
