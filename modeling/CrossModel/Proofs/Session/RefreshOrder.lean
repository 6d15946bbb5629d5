import CrossModel.Proofs.Session.Refresh
import CrossModel.Proofs.Session.Run

/-!
# The order of imports does not matter to a refresh

What a refresh gives for an import is a function of the session before it, the files and the kind
and key of the import: `Session.answer`, instances aside, and the instance itself if one is
available before the refresh. Nothing that is resolved in between changes either. So two refreshes
with the same imports in different orders agree, though what is loaded anew may be another instance.
-/

namespace CrossModel.Session

variable {session earlier later : Session} {files : FileSystem}
  {declaration other : ImportDeclaration} {definition : Definition}

/-! ## Answers without instances -/

/-- The answer to an import, instances aside: the content of what the session knows, or what loading
leads to. -/
def answer (session : Session) (files : FileSystem) (declaration : ImportDeclaration) :
    Except ResolveError Document :=
  match session.known? declaration with
  | some definition => .ok definition.document
  | none =>
    (session.loadedDocument files declaration.kind declaration.key).mapError
      (.unresolvedImport declaration.key)

theorem answer_of_known (h : session.known? declaration = some definition) :
    session.answer files declaration = .ok definition.document := by
  unfold answer
  rw [h]

theorem answer_of_unknown (h : session.known? declaration = none) :
    session.answer files declaration =
      (session.loadedDocument files declaration.kind declaration.key).mapError
        (.unresolvedImport declaration.key) := by
  unfold answer
  rw [h]

theorem answer_congr (hkind : declaration.kind = other.kind) (hkey : declaration.key = other.key) :
    session.answer files declaration = session.answer files other := by
  unfold answer
  rw [known?_congr hkind hkey, hkind, hkey]

theorem map_document_resolve (session : Session) (files : FileSystem)
    (declaration : ImportDeclaration) :
    (session.resolve files declaration).value.map Definition.document =
      session.answer files declaration := by
  rcases resolve_cases session files declaration with
    ⟨definition, hknown, hresolve⟩ | ⟨definition, hknown, -, hloaded, hresolve⟩ |
    ⟨reason, hknown, hloaded, hresolve⟩
  · rw [hresolve, answer_of_known hknown]
    rfl
  · rw [hresolve, answer_of_unknown hknown, hloaded]
    rfl
  · rw [hresolve, answer_of_unknown hknown, hloaded]
    rfl

/-- Resolving other imports changes no answer: what becomes known has the content that loading it
leads to. -/
theorem Grown.answer (h : Grown files earlier later) (declaration : ImportDeclaration) :
    later.answer files declaration = earlier.answer files declaration := by
  cases hearlier : earlier.known? declaration with
  | some definition =>
    rw [answer_of_known hearlier, answer_of_known (h.known hearlier)]
  | none =>
    obtain ⟨haliased, hcached⟩ := known?_eq_none_iff.1 hearlier
    rw [answer_of_unknown hearlier]
    cases hlater : later.known? declaration with
    | none => rw [answer_of_unknown hlater, h.loadedDocument]
    | some definition =>
      have hadded : later.cache.get? declaration.kind declaration.key = some definition := by
        rw [known?_eq, h.aliased?, haliased, Option.none_or] at hlater
        exact hlater
      rw [answer_of_known hlater]
      rcases h.added hadded with hbefore | hloaded
      · rw [hcached] at hbefore
        cases hbefore
      · rw [hloaded]
        rfl

theorem map_document_resolveAll (session : Session) (files : FileSystem)
    (imports : List ImportDeclaration) :
    ∀ outcome ∈ imports.zip (session.resolveAll files imports).value,
      outcome.2.map Definition.document = session.answer files outcome.1 := by
  induction imports generalizing session with
  | nil =>
    intro outcome houtcome
    cases houtcome
  | cons declaration rest ih =>
    intro outcome houtcome
    rw [resolveAll, List.zip_cons_cons] at houtcome
    rcases List.mem_cons.1 houtcome with rfl | houtcome
    · exact map_document_resolve session files declaration
    · rw [ih _ outcome houtcome, (grown_resolve session files declaration).answer]

theorem answer_evicted {imports : List ImportDeclaration} (h : declaration ∈ imports) :
    (session.evicted imports).answer files declaration = session.answer files declaration := by
  have hloaded : (session.evicted imports).loadedDocument files = session.loadedDocument files :=
    loadedDocument_congr rfl (bundledDocument?_of_same_bundle files rfl rfl)
  unfold answer
  rw [known?_evicted h, hloaded]

theorem map_document_refreshResults {imports : List ImportDeclaration} {outcome : Outcome}
    (h : outcome ∈ imports.zip (session.refreshResults files imports).value) :
    outcome.2.map Definition.document = session.answer files outcome.1 := by
  rw [map_document_resolveAll (session.evicted imports) files imports outcome h,
    answer_evicted (List.of_mem_zip h).1]

/-! ## Instances that are there before -/

/-- The instance that answers an import without a file: one that is known, or else a bundled one
that has been read before. -/
def available? (session : Session) (declaration : ImportDeclaration) : Option Definition :=
  (session.known? declaration).or
    ((session.bundled? (declaration.kind.bundleLocation declaration.path)).filter
      (·.kind = declaration.kind))

theorem available?_of_known (h : session.known? declaration = some definition) :
    session.available? declaration = some definition := by
  unfold available?
  rw [h, Option.some_or]

/-- An import that is not known is available if a bundled definition of its kind matches. -/
theorem available?_iff_of_unknown (h : session.known? declaration = none) :
    session.available? declaration = some definition ↔
      session.bundled? (declaration.kind.bundleLocation declaration.path) = some definition ∧
        definition.kind = declaration.kind := by
  unfold available?
  rw [h, Option.none_or, Option.filter_eq_some_iff, decide_eq_true_eq]

theorem available?_congr (hkind : declaration.kind = other.kind)
    (hkey : declaration.key = other.key) :
    session.available? declaration = session.available? other := by
  have hpath : declaration.path = other.path := congrArg ImportKey.path hkey
  unfold available?
  rw [known?_congr hkind hkey, hkind, hpath]

theorem isSome_bundle_of_bundled? {location : String}
    (h : session.bundled? location = some definition) : session.bundle.isSome := by
  unfold bundled? at h
  cases hbundle : session.bundle with
  | none =>
    rw [hbundle] at h
    cases h
  | some bundle => rfl

theorem resolve_of_available (h : session.available? declaration = some definition) :
    (session.resolve files declaration).value = .ok definition := by
  cases hknown : session.known? declaration with
  | some found =>
    rw [available?_of_known hknown] at h
    cases h
    simp only [resolve, hknown]
  | none =>
    obtain ⟨hbundled, hkind⟩ := (available?_iff_of_unknown hknown).1 h
    obtain ⟨bundle, hbundle⟩ := Option.isSome_iff_exists.1 (isSome_bundle_of_bundled? hbundled)
    have hready : (session.ensureBundle files).session.bundled?
        (declaration.kind.bundleLocation declaration.key.path) = some definition := by
      rw [ensureBundle_of_bundle files hbundle]
      exact hbundled
    have hload : (session.load files declaration).value = .ok definition := by
      rw [load_of_bundled hready]
      simp only [hkind, if_true]
    simp only [resolve, hknown, hload]

/-- What is available stays so while imports are resolved, by the same instance. -/
theorem available?_resolve (h : session.available? declaration = some definition) :
    (session.resolve files other).session.available? declaration = some definition := by
  have hgrown := grown_resolve session files other
  cases hknown : session.known? declaration with
  | some found =>
    rw [available?_of_known hknown] at h
    cases h
    exact available?_of_known (hgrown.known hknown)
  | none =>
    obtain ⟨hbundled, hkind⟩ := (available?_iff_of_unknown hknown).1 h
    by_cases hsame : declaration.kind = other.kind ∧ declaration.key = other.key
    · -- The import itself was resolved: the instance is cached now.
      have hvalue : (session.resolve files other).value = .ok definition :=
        resolve_of_available ((available?_congr hsame.1 hsame.2).symm.trans h)
      have hsettled := settled_resolve session files other
      rw [hvalue] at hsettled
      apply available?_of_known
      rw [known?_congr hsame.1 hsame.2]
      exact hsettled
    · have hunknown : (session.resolve files other).session.known? declaration = none := by
        rw [← Option.isNone_iff_eq_none, isNone_known?_resolve, hknown]
        simp [hsame]
      refine (available?_iff_of_unknown hunknown).2 ⟨?_, hkind⟩
      unfold bundled? at hbundled ⊢
      rw [hgrown.bundle (isSome_bundle_of_bundled? hbundled)]
      exact hbundled

theorem resolveAll_of_available (session : Session) (files : FileSystem)
    (imports : List ImportDeclaration) :
    ∀ outcome ∈ imports.zip (session.resolveAll files imports).value, ∀ definition,
      session.available? outcome.1 = some definition → outcome.2 = .ok definition := by
  induction imports generalizing session with
  | nil =>
    intro outcome houtcome
    cases houtcome
  | cons declaration rest ih =>
    intro outcome houtcome definition havailable
    rw [resolveAll, List.zip_cons_cons] at houtcome
    rcases List.mem_cons.1 houtcome with rfl | houtcome
    · exact resolve_of_available havailable
    · exact ih _ outcome houtcome definition (available?_resolve havailable)

theorem refreshResults_of_available {imports : List ImportDeclaration} {outcome : Outcome}
    (h : outcome ∈ imports.zip (session.refreshResults files imports).value)
    (havailable : session.available? outcome.1 = some definition) :
    outcome.2 = .ok definition := by
  apply resolveAll_of_available (session.evicted imports) files imports outcome h
  have hbundled : (session.evicted imports).bundled? = session.bundled? := rfl
  unfold available? at havailable ⊢
  rw [known?_evicted (List.of_mem_zip h).1, hbundled]
  exact havailable

/-! ## Repeated imports -/

/-- Imports of one kind and key have one result. -/
def Consistent (outcomes : List Outcome) : Prop :=
  ∀ a ∈ outcomes, ∀ b ∈ outcomes, a.1.kind = b.1.kind → a.1.key = b.1.key → a.2 = b.2

/-- A session is settled on one result for a kind and key. -/
theorem Settled.unique {result otherResult : Except ResolveError Definition}
    (h : Settled files session declaration result)
    (hother : Settled files session other otherResult)
    (hkind : declaration.kind = other.kind) (hkey : declaration.key = other.key) :
    result = otherResult := by
  have hknown : session.known? declaration = session.known? other := known?_congr hkind hkey
  cases result with
  | ok found =>
    have hfound : session.known? declaration = some found := h
    cases otherResult with
    | ok otherFound =>
      have hotherFound : session.known? other = some otherFound := hother
      rw [← hknown, hfound] at hotherFound
      cases hotherFound
      rfl
    | error otherError =>
      obtain ⟨-, -, hunknown, -, -⟩ := hother
      rw [← hknown, hfound] at hunknown
      cases hunknown
  | error error =>
    obtain ⟨reason, rfl, hunknown, -, hloaded⟩ := h
    cases otherResult with
    | ok otherFound =>
      have hotherFound : session.known? other = some otherFound := hother
      rw [← hknown, hunknown] at hotherFound
      cases hotherFound
    | error otherError =>
      obtain ⟨otherReason, rfl, -, -, hotherLoaded⟩ := hother
      rw [← hkind, ← hkey, hloaded] at hotherLoaded
      cases hotherLoaded
      rw [hkey]

theorem consistent_refreshResults (session : Session) (files : FileSystem)
    (imports : List ImportDeclaration) :
    Consistent (imports.zip (session.refreshResults files imports).value) := by
  have hsettled := settled_resolveAll (session.evicted imports) files imports
  intro a ha b hb hkind hkey
  exact (hsettled a ha).unique (hsettled b hb) hkind hkey

/-! ## Two orders -/

theorem length_refreshResults_value (session : Session) (files : FileSystem)
    (imports : List ImportDeclaration) :
    (session.refreshResults files imports).value.length = imports.length :=
  length_resolveAll_value (session.evicted imports) files imports

/-- An import that succeeds in one refresh does so in every other one that has it. -/
theorem exists_ok_refreshResults {imports others : List ImportDeclaration}
    (h : (declaration, .ok definition) ∈ imports.zip (session.refreshResults files imports).value)
    (hmem : declaration ∈ others) :
    ∃ found, (declaration, .ok found) ∈ others.zip (session.refreshResults files others).value := by
  have hlength := length_refreshResults_value session files others
  rw [← List.map_fst_zip (Nat.le_of_eq hlength.symm)] at hmem
  obtain ⟨⟨other, result⟩, houtcome, rfl⟩ := List.mem_map.1 hmem
  have hanswer := (map_document_refreshResults houtcome).trans (map_document_refreshResults h).symm
  cases result with
  | ok found => exact ⟨found, houtcome⟩
  | error error => cases hanswer

theorem isSome_get?_refreshResults_of_subset {imports others : List ImportDeclaration}
    (hsubset : ∀ declaration ∈ imports, declaration ∈ others) {kind : DefinitionKind}
    {key : ImportKey}
    (h : ((session.refreshResults files imports).session.cache.get? kind key).isSome) :
    ((session.refreshResults files others).session.cache.get? kind key).isSome := by
  rw [isSome_get?_refreshResults_iff] at h ⊢
  rcases h with ⟨hcached, declaration, hmem, hkey⟩ |
    ⟨declaration, definition, hmem, hkind, hkey, haliased⟩
  · exact .inl ⟨hcached, declaration, hsubset declaration hmem, hkey⟩
  · obtain ⟨found, hfound⟩ :=
      exists_ok_refreshResults hmem (hsubset declaration (List.of_mem_zip hmem).1)
    exact .inr ⟨declaration, found, hfound, hkind, hkey, haliased⟩

/-- Two refreshes of one session over the same files, with the same imports in different orders,
agree: each import has a result in both, by definitions with the same content or by the same error,
and by the same instance if one was available before. The same kinds and keys are cached afterwards,
and within each refresh repeated imports have one result. -/
theorem refreshResults_perm (session : Session) (files : FileSystem)
    {imports permuted : List ImportDeclaration} (h : imports.Perm permuted) :
    let first := session.refreshResults files imports
    let second := session.refreshResults files permuted
    first.value.length = imports.length ∧
    second.value.length = permuted.length ∧
    (∀ a ∈ imports.zip first.value, ∀ b ∈ permuted.zip second.value,
      a.1.kind = b.1.kind → a.1.key = b.1.key →
        a.2.map Definition.document = b.2.map Definition.document ∧
        ∀ definition, session.available? a.1 = some definition →
          a.2 = .ok definition ∧ b.2 = .ok definition) ∧
    (∀ kind key, (kind, key) ∈ first.session.cache.keys ↔
      (kind, key) ∈ second.session.cache.keys) ∧
    Consistent (imports.zip first.value) ∧
    Consistent (permuted.zip second.value) := by
  refine ⟨length_refreshResults_value session files imports,
    length_refreshResults_value session files permuted, ?_, ?_,
    consistent_refreshResults session files imports,
    consistent_refreshResults session files permuted⟩
  · intro a ha b hb hkind hkey
    constructor
    · rw [map_document_refreshResults ha, map_document_refreshResults hb, answer_congr hkind hkey]
    · intro definition havailable
      have hother : session.available? b.1 = some definition :=
        (available?_congr hkind hkey).symm.trans havailable
      exact ⟨refreshResults_of_available ha havailable, refreshResults_of_available hb hother⟩
  · intro kind key
    rw [Catalog.mem_keys_iff, Catalog.mem_keys_iff, ← Catalog.isSome_get?_iff,
      ← Catalog.isSome_get?_iff]
    constructor
    · exact isSome_get?_refreshResults_of_subset fun _ => h.mem_iff.1
    · exact isSome_get?_refreshResults_of_subset fun _ => h.mem_iff.2

/-- Imports that fail, are known, are loaded anew and stand there twice. -/
def mixedImports : List ImportDeclaration :=
  [missingImport, baseImport, { baseImport with aliasName := none }, baseImport]

theorem refreshResults_mixedImports_reverse :
    let session := ((start sampleSettings).resolve sampleFiles baseImport).session
    let first := session.refreshResults sampleFiles mixedImports
    let second := session.refreshResults sampleFiles mixedImports.reverse
    mixedImports.Perm mixedImports.reverse ∧
    first.value.map (·.isOk) = [false, true, true, true] ∧
    (∀ a ∈ mixedImports.zip first.value, ∀ b ∈ mixedImports.reverse.zip second.value,
      a.1.kind = b.1.kind → a.1.key = b.1.key →
        a.2.map Definition.document = b.2.map Definition.document ∧
        ∀ definition, session.available? a.1 = some definition →
          a.2 = .ok definition ∧ b.2 = .ok definition) ∧
    (∀ kind key, (kind, key) ∈ first.session.cache.keys ↔
      (kind, key) ∈ second.session.cache.keys) := by
  intro session first second
  have hperm : mixedImports.Perm mixedImports.reverse := (List.reverse_perm mixedImports).symm
  have hresults : first.value.map (·.isOk) = [false, true, true, true] := by decide +kernel
  obtain ⟨-, -, hsame, hkeys, -, -⟩ := refreshResults_perm session sampleFiles hperm
  exact ⟨hperm, hresults, hsame, hkeys⟩

end CrossModel.Session
