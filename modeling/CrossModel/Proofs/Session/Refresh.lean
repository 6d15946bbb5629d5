import CrossModel.Proofs.Session.Loading

/-!
# What a refresh does

A refresh drops from the cache what its imports do not ask for and then resolves them one after the
other. This module says which entries the cache has afterwards, in which order and as which
instances, and that a second refresh with the same imports gives the same results and changes
nothing but the number of loads.

Eviction compares keys without their kinds, while entries are kept by kind. The two views meet in
`keysOf_resolveAll`: resolving adds the keys of what was loaded behind those that are there.
-/

namespace CrossModel

/-! ## Log lines -/

/-- The line about an import that is dropped from the cache. -/
def evictionLine (kind : DefinitionKind) (key : ImportKey) : LogLine :=
  .info ("Removing unused " ++ kind.text ++ " import " ++ key.path ++ " (alias=" ++
    key.aliasText ++ ")")

/-- Whether a line is about an import that is dropped from the cache. -/
def LogLine.isEviction (line : LogLine) : Bool :=
  line.level = .info && "Removing unused ".toList.isPrefixOf line.message.toList

theorem isEviction_evictionLine (kind : DefinitionKind) (key : ImportKey) :
    (evictionLine kind key).isEviction = true := by
  unfold evictionLine LogLine.isEviction LogLine.info
  rw [Bool.and_eq_true, List.isPrefixOf_iff_prefix]
  refine ⟨rfl, ?_⟩
  simp only [String.toList_append, List.append_assoc]
  exact List.prefix_append _ _

theorem isEviction_of_level {line : LogLine} (h : line.level ≠ .info) :
    line.isEviction = false := by
  unfold LogLine.isEviction
  simp [h]

theorem isEviction_info_toString (n : Nat) (text : String) :
    (LogLine.info (toString n ++ text)).isEviction = false := by
  unfold LogLine.isEviction LogLine.info
  rw [Bool.and_eq_false_iff]
  right
  rw [Nat.toString_eq_repr, String.toList_append, Nat.toList_repr]
  cases hdigits : Nat.toDigits 10 n with
  | nil => exact absurd hdigits Nat.toDigits_ne_nil
  | cons c cs =>
    have hdigit : c.isDigit := by
      apply Nat.isDigit_of_mem_toDigits (b := 10) (n := n) (by omega) (by omega)
      rw [hdigits]
      exact List.mem_cons_self
    have hne : 'R' ≠ c := by
      rintro rfl
      exact absurd hdigit (by decide)
    simp [List.isPrefixOf, hne]

namespace Session

theorem level_of_mem_readFile {files : FileSystem} {kind : DefinitionKind} {path : Path}
    {line : LogLine} (h : line ∈ (BundleScan.readFile files kind path).log) :
    line.level = .error := by
  unfold BundleScan.readFile at h
  split at h
  · cases h
  · simp only at h
    split at h
    · cases h
    · rw [List.mem_singleton.1 h]
      rfl

theorem level_of_mem_ofFolder {files : FileSystem} {root : Path} {kind : DefinitionKind}
    {line : LogLine} (h : line ∈ (BundleScan.ofFolder files root kind).log) :
    line.level = .error := by
  unfold BundleScan.ofFolder at h
  simp only at h
  split at h
  · obtain ⟨scan, hscan, hline⟩ := List.mem_flatMap.1 h
    obtain ⟨path, -, rfl⟩ := List.mem_map.1 hscan
    exact level_of_mem_readFile hline
  · rw [List.mem_singleton.1 h]
    rfl

theorem level_of_mem_registerLog {entries : List BundleEntry} {line : LogLine}
    (h : line ∈ Bundle.registerLog entries) : line.level = .error := by
  obtain ⟨entry, -, hline⟩ := List.mem_filterMap.1 h
  split at hline
  · cases hline
    rfl
  · cases hline

theorem isEviction_of_mem_ensureBundle {session : Session} {files : FileSystem} {line : LogLine}
    (h : line ∈ (session.ensureBundle files).log) : line.isEviction = false := by
  unfold ensureBundle at h
  split at h
  · cases h
  · rw [List.mem_singleton.1 h]
    exact isEviction_of_level (by decide)
  · simp only [BundleScan.ofRoot, BundleScan.append, List.mem_append, List.mem_singleton] at h
    rcases h with ((hline | hline) | hline) | rfl
    · exact isEviction_of_level (by rw [level_of_mem_ofFolder hline]; decide)
    · exact isEviction_of_level (by rw [level_of_mem_ofFolder hline]; decide)
    · exact isEviction_of_level (by rw [level_of_mem_registerLog hline]; decide)
    · exact isEviction_info_toString _ _

theorem isEviction_of_mem_placeImport {session : Session} {declaration : ImportDeclaration}
    {file : Path} {line : LogLine} (h : line ∈ (session.placeImport declaration file).log) :
    line.isEviction = false := by
  unfold placeImport at h
  simp only at h
  split at h
  · cases h
  · split at h
    · cases h
    · simp only at h
      split at h
      · cases h
      · rw [List.mem_singleton.1 h]
        exact isEviction_of_level LogLevel.noConfusion

theorem isEviction_of_mem_load {session : Session} {files : FileSystem}
    {declaration : ImportDeclaration} {line : LogLine}
    (h : line ∈ (session.load files declaration).log) : line.isEviction = false := by
  cases hbundled : (session.ensureBundle files).session.bundled?
      (declaration.kind.bundleLocation declaration.key.path) with
  | some definition =>
    rw [load_of_bundled hbundled] at h
    exact isEviction_of_mem_ensureBundle h
  | none =>
    cases hlocated : session.settings.locate files declaration.key.path with
    | none =>
      rw [load_of_not_located hbundled hlocated] at h
      exact isEviction_of_mem_ensureBundle h
    | some file =>
      rw [load_of_located hbundled hlocated] at h
      rcases List.mem_append.1 h with hline | hline
      · exact isEviction_of_mem_ensureBundle hline
      · exact isEviction_of_mem_placeImport hline

theorem isEviction_of_mem_resolve {session : Session} {files : FileSystem}
    {declaration : ImportDeclaration} {line : LogLine}
    (h : line ∈ (session.resolve files declaration).log) : line.isEviction = false := by
  rcases resolve_cases session files declaration with
    ⟨definition, -, hresolve⟩ | ⟨definition, -, -, -, hresolve⟩ | ⟨reason, -, -, hresolve⟩
  · rw [hresolve] at h
    cases h
  · rw [hresolve] at h
    exact isEviction_of_mem_load h
  · rw [hresolve] at h
    rcases List.mem_append.1 h with hline | hline
    · exact isEviction_of_mem_load hline
    · rw [List.mem_singleton.1 hline]
      exact isEviction_of_level LogLevel.noConfusion

theorem filter_isEviction_resolveAll (session : Session) (files : FileSystem)
    (imports : List ImportDeclaration) :
    (session.resolveAll files imports).log.filter LogLine.isEviction = [] := by
  induction imports generalizing session with
  | nil => rfl
  | cons declaration rest ih =>
    rw [resolveAll, List.filter_append, ih, List.append_nil]
    apply List.filter_eq_nil_iff.2
    intro line hline
    simp [isEviction_of_mem_resolve hline]

theorem filter_isEviction_refreshResults (session : Session) (files : FileSystem)
    (imports : List ImportDeclaration) :
    (session.refreshResults files imports).log.filter LogLine.isEviction =
      (session.cache.dropped (imports.map (·.key)).contains).map
        fun entry => evictionLine entry.1 entry.2 := by
  have hevicted : (session.evictExcept (imports.map (·.key))).log =
      (session.cache.dropped (imports.map (·.key)).contains).map
        fun entry => evictionLine entry.1 entry.2 := rfl
  simp only [refreshResults]
  rw [List.filter_append, filter_isEviction_resolveAll, List.append_nil, hevicted]
  apply List.filter_eq_self.2
  intro line hline
  obtain ⟨entry, -, rfl⟩ := List.mem_map.1 hline
  exact isEviction_evictionLine entry.1 entry.2

/-! ## Outcomes -/

theorem length_resolveAll_value (session : Session) (files : FileSystem)
    (imports : List ImportDeclaration) :
    (session.resolveAll files imports).value.length = imports.length := by
  induction imports generalizing session with
  | nil => rfl
  | cons declaration rest ih => rw [resolveAll, List.length_cons, ih, List.length_cons]

/-- What became of an import: the declaration and its result. -/
abbrev Outcome := ImportDeclaration × Except ResolveError Definition

/-- The session answers this import in the same way if it is asked once more: it knows the
definition, or loading fails for the same reason. -/
def Settled (files : FileSystem) (session : Session) (declaration : ImportDeclaration) :
    Except ResolveError Definition → Prop
  | .ok definition => session.known? declaration = some definition
  | .error error => ∃ reason, error = .unresolvedImport declaration.key reason ∧
      session.known? declaration = none ∧ session.bundle.isSome ∧
      session.loadedDocument files declaration.kind declaration.key = .error reason

theorem Settled.of_grown {files : FileSystem} {earlier later : Session}
    {declaration : ImportDeclaration} {result : Except ResolveError Definition}
    (h : Settled files earlier declaration result) (hgrown : Grown files earlier later) :
    Settled files later declaration result := by
  cases result with
  | ok definition => exact hgrown.known h
  | error error =>
    obtain ⟨reason, rfl, hknown, hbundle, hloaded⟩ := h
    refine ⟨reason, rfl, hgrown.unknown hknown hloaded, ?_, ?_⟩
    · rw [hgrown.bundle hbundle]
      exact hbundle
    · rw [hgrown.loadedDocument]
      exact hloaded

theorem known?_registerImport_self {session : Session} {declaration : ImportDeclaration}
    {definition : Definition} (haliased : session.aliased? declaration = none)
    (hkind : definition.kind = declaration.kind) :
    (session.registerImport declaration.key definition).known? declaration = some definition := by
  have hsame : (session.registerImport declaration.key definition).aliased? declaration = none :=
    haliased
  rw [known?_eq, hsame, Option.none_or, registerImport, Catalog.get?_insert,
    if_pos ⟨hkind, rfl⟩]

theorem isSome_bundle_load (session : Session) (files : FileSystem)
    (declaration : ImportDeclaration) :
    (session.load files declaration).session.bundle.isSome := by
  obtain ⟨bundle, nextId, heq⟩ := ensureBundle_session session files
  rw [bundle_load, heq]
  rfl

theorem settled_resolve (session : Session) (files : FileSystem)
    (declaration : ImportDeclaration) :
    Settled files (session.resolve files declaration).session declaration
      (session.resolve files declaration).value := by
  have hgrown := grown_load session files declaration
  rcases resolve_cases session files declaration with
    ⟨definition, hknown, hresolve⟩ | ⟨definition, hknown, hkind, -, hresolve⟩ |
    ⟨reason, hknown, hloaded, hresolve⟩
  · rw [hresolve]
    exact hknown
  · rw [hresolve]
    have haliased : (session.load files declaration).session.aliased? declaration = none := by
      rw [hgrown.aliased?]
      exact (known?_eq_none_iff.1 hknown).1
    exact known?_registerImport_self haliased hkind
  · rw [hresolve]
    refine ⟨reason, rfl, hgrown.unknown hknown hloaded, ?_, ?_⟩
    · exact isSome_bundle_load session files declaration
    · rw [hgrown.loadedDocument]
      exact hloaded

/-- At the end of a refresh the session is settled on every one of its results, whatever was
resolved before and after it. -/
theorem settled_resolveAll (session : Session) (files : FileSystem)
    (imports : List ImportDeclaration) :
    ∀ outcome ∈ imports.zip (session.resolveAll files imports).value,
      Settled files (session.resolveAll files imports).session outcome.1 outcome.2 := by
  induction imports generalizing session with
  | nil =>
    intro outcome houtcome
    cases houtcome
  | cons declaration rest ih =>
    intro outcome houtcome
    rw [resolveAll, List.zip_cons_cons] at houtcome
    rcases List.mem_cons.1 houtcome with rfl | houtcome
    · exact (settled_resolve session files declaration).of_grown (grown_resolveAll _ files rest)
    · exact ih _ outcome houtcome

/-! ## Keys of the cache -/

/-- Whether an import is of this kind and succeeded although it was not known before. -/
def newlyLoaded (session : Session) (kind : DefinitionKind) (outcome : Outcome) : Bool :=
  outcome.1.kind = kind && outcome.2.isOk && (session.known? outcome.1).isNone

/-- The keys of the imports of one kind that were newly loaded, in the order of the imports, each of
them once. -/
def loadedKeys (session : Session) (kind : DefinitionKind) (outcomes : List Outcome) :
    List ImportKey :=
  ((outcomes.filter (session.newlyLoaded kind)).map (·.1.key)).eraseDups

theorem known?_congr {session : Session} {a b : ImportDeclaration} (hkind : a.kind = b.kind)
    (hkey : a.key = b.key) : session.known? a = session.known? b := by
  unfold known?
  rw [hkind, hkey]

theorem known?_load (session : Session) (files : FileSystem)
    (declaration other : ImportDeclaration) :
    (session.load files declaration).session.known? other = session.known? other := by
  rw [known?_eq, known?_eq, cache_load, (grown_load session files declaration).aliased?]

/-- Resolving an import makes known what has its kind and key, if it succeeds, and nothing else. -/
theorem isNone_known?_resolve (session : Session) (files : FileSystem)
    (declaration other : ImportDeclaration) :
    ((session.resolve files declaration).session.known? other).isNone =
      ((session.known? other).isNone &&
        !(decide (other.kind = declaration.kind ∧ other.key = declaration.key) &&
          (session.resolve files declaration).value.isOk)) := by
  rcases resolve_cases session files declaration with
    ⟨definition, hknown, hresolve⟩ | ⟨definition, -, hkind, -, hresolve⟩ | ⟨reason, -, -, hresolve⟩
  · rw [hresolve]
    by_cases hsame : other.kind = declaration.kind ∧ other.key = declaration.key
    · simp [known?_congr hsame.1 hsame.2, hknown]
    · simp [hsame]
  · rw [hresolve]
    have hbefore := known?_load session files declaration other
    rw [known?_eq] at hbefore
    have hafter : ((session.load files declaration).session.registerImport declaration.key
        definition).aliased? other = (session.load files declaration).session.aliased? other := rfl
    rw [known?_eq, hafter, registerImport, Catalog.get?_insert, ← hbefore]
    by_cases hsame : other.kind = declaration.kind ∧ other.key = declaration.key
    · rw [if_pos ⟨hkind.trans hsame.1.symm, hsame.2.symm⟩]
      simp [hsame, Except.isOk, Except.toBool]
    · rw [if_neg fun h => hsame ⟨h.1.symm.trans hkind, h.2.symm⟩]
      simp [hsame]
  · rw [hresolve]
    simp [known?_load, Except.isOk, Except.toBool]

theorem keysOf_resolve (session : Session) (files : FileSystem)
    (declaration : ImportDeclaration) (kind : DefinitionKind) :
    (session.resolve files declaration).session.cache.keysOf kind =
      session.cache.keysOf kind ++
        if session.newlyLoaded kind (declaration, (session.resolve files declaration).value) then
          [declaration.key] else [] := by
  unfold newlyLoaded
  rcases resolve_cases session files declaration with
    ⟨definition, hknown, hresolve⟩ | ⟨definition, hknown, hkind, -, hresolve⟩ |
    ⟨reason, -, -, hresolve⟩
  · rw [hresolve]
    simp [hknown]
  · have hcached := (known?_eq_none_iff.1 hknown).2
    have hkeys : declaration.key ∉ session.cache.keysOf declaration.kind := by
      rw [← Catalog.isSome_get?_iff, hcached]
      simp
    rw [hresolve, registerImport, Catalog.keysOf_insert, cache_load, hkind]
    by_cases heq : declaration.kind = kind
    · subst heq
      simp [hkeys, hknown, Except.isOk, Except.toBool]
    · simp [heq]
  · rw [hresolve, cache_load]
    simp [Except.isOk, Except.toBool]

theorem newlyLoaded_resolve (session : Session) (files : FileSystem)
    (declaration : ImportDeclaration) (kind : DefinitionKind) (outcome : Outcome) :
    (session.resolve files declaration).session.newlyLoaded kind outcome =
      (session.newlyLoaded kind outcome &&
        !(session.newlyLoaded kind (declaration, (session.resolve files declaration).value) &&
          outcome.1.key == declaration.key)) := by
  unfold newlyLoaded
  rw [isNone_known?_resolve]
  by_cases hkey : outcome.1.key = declaration.key
  · by_cases hkind : outcome.1.kind = declaration.kind
    · rw [known?_congr hkind hkey, hkind]
      cases (session.known? declaration).isNone <;> cases decide (declaration.kind = kind) <;>
        simp [hkey]
    · by_cases hthis : outcome.1.kind = kind
      · have hother : declaration.kind ≠ kind := fun heq => hkind (hthis.trans heq.symm)
        simp [hother, hkind]
      · simp [hthis]
  · have hbeq : (outcome.1.key == declaration.key) = false := beq_false_of_ne hkey
    simp [hkey, hbeq]

theorem loadedKeys_cons (session : Session) (files : FileSystem)
    (declaration : ImportDeclaration) (kind : DefinitionKind) (outcomes : List Outcome) :
    session.loadedKeys kind
        ((declaration, (session.resolve files declaration).value) :: outcomes) =
      (if session.newlyLoaded kind (declaration, (session.resolve files declaration).value) then
          [declaration.key] else []) ++
        (session.resolve files declaration).session.loadedKeys kind outcomes := by
  have hstep := newlyLoaded_resolve session files declaration kind
  unfold loadedKeys
  rw [List.filter_cons]
  cases hloaded : session.newlyLoaded kind
      (declaration, (session.resolve files declaration).value) with
  | true =>
    simp only [hloaded, Bool.true_and] at hstep
    rw [if_pos rfl, if_pos rfl, List.map_cons, List.eraseDups_cons, List.filter_map,
      List.filter_filter, List.singleton_append]
    congr 4
    funext outcome
    rw [hstep, Bool.and_comm]
    rfl
  | false =>
    simp only [hloaded, Bool.false_and, Bool.not_false, Bool.and_true] at hstep
    rw [if_neg Bool.false_ne_true, if_neg Bool.false_ne_true, List.nil_append, funext hstep]

theorem keysOf_resolveAll (session : Session) (files : FileSystem)
    (imports : List ImportDeclaration) (kind : DefinitionKind) :
    (session.resolveAll files imports).session.cache.keysOf kind =
      session.cache.keysOf kind ++
        session.loadedKeys kind (imports.zip (session.resolveAll files imports).value) := by
  induction imports generalizing session with
  | nil => simp [resolveAll, loadedKeys]
  | cons declaration rest ih =>
    rw [resolveAll, List.zip_cons_cons, loadedKeys_cons, ih, keysOf_resolve, List.append_assoc]

/-! ## The effect of a refresh -/

/-- The session after the eviction of a refresh, before its imports are resolved. -/
def evicted (session : Session) (imports : List ImportDeclaration) : Session :=
  (session.evictExcept (imports.map (·.key))).session

theorem refreshResults_value (session : Session) (files : FileSystem)
    (imports : List ImportDeclaration) :
    (session.refreshResults files imports).value =
      ((session.evicted imports).resolveAll files imports).value := rfl

theorem refreshResults_session (session : Session) (files : FileSystem)
    (imports : List ImportDeclaration) :
    (session.refreshResults files imports).session =
      ((session.evicted imports).resolveAll files imports).session := rfl

theorem get?_evicted {session : Session} {imports : List ImportDeclaration}
    {declaration : ImportDeclaration} (h : declaration ∈ imports) (kind : DefinitionKind) :
    (session.evicted imports).cache.get? kind declaration.key =
      session.cache.get? kind declaration.key := by
  have hkey : declaration.key ∈ imports.map (·.key) := List.mem_map_of_mem h
  rw [evicted, evictExcept, Catalog.get?_retain, if_pos (List.contains_iff_mem.2 hkey)]

theorem known?_evicted {session : Session} {imports : List ImportDeclaration}
    {declaration : ImportDeclaration} (h : declaration ∈ imports) :
    (session.evicted imports).known? declaration = session.known? declaration := by
  rw [known?_eq, known?_eq, get?_evicted h]
  rfl

theorem keysOf_refreshResults (session : Session) (files : FileSystem)
    (imports : List ImportDeclaration) (kind : DefinitionKind) :
    (session.refreshResults files imports).session.cache.keysOf kind =
      (session.cache.keysOf kind).filter (imports.map (·.key)).contains ++
        session.loadedKeys kind
          (imports.zip (session.refreshResults files imports).value) := by
  have hkept : (session.evicted imports).cache.keysOf kind =
      (session.cache.keysOf kind).filter (imports.map (·.key)).contains :=
    Catalog.keysOf_retain _ _ kind
  have hloaded : ∀ outcome ∈ imports.zip ((session.evicted imports).resolveAll files imports).value,
      (session.evicted imports).newlyLoaded kind outcome = session.newlyLoaded kind outcome := by
    intro outcome houtcome
    unfold newlyLoaded
    rw [known?_evicted (List.of_mem_zip houtcome).1]
  rw [refreshResults_session, refreshResults_value, keysOf_resolveAll, hkept, loadedKeys,
    loadedKeys, List.filter_congr hloaded]

theorem get?_refreshResults_of_ok {session : Session} {files : FileSystem}
    {imports : List ImportDeclaration} {declaration : ImportDeclaration} {definition : Definition}
    (h : (declaration, .ok definition) ∈
      imports.zip (session.refreshResults files imports).value)
    (haliased : session.aliased? declaration = none) :
    (session.refreshResults files imports).session.cache.get? declaration.kind declaration.key =
      some definition := by
  rw [refreshResults_value] at h
  rw [refreshResults_session]
  have hknown := settled_resolveAll (session.evicted imports) files imports _ h
  have hsame := (grown_resolveAll (session.evicted imports) files imports).aliased? declaration
  have hevicted : (session.evicted imports).aliased? declaration = none := haliased
  simp only [Settled, known?_eq, hsame, hevicted, Option.none_or] at hknown
  exact hknown

theorem isSome_get?_refreshResults_iff (session : Session) (files : FileSystem)
    (imports : List ImportDeclaration) (kind : DefinitionKind) (key : ImportKey) :
    ((session.refreshResults files imports).session.cache.get? kind key).isSome ↔
      ((session.cache.get? kind key).isSome ∧ ∃ declaration ∈ imports, declaration.key = key) ∨
      ∃ declaration definition, (declaration, .ok definition) ∈
          imports.zip (session.refreshResults files imports).value ∧
        declaration.kind = kind ∧ declaration.key = key ∧
        session.aliased? declaration = none := by
  constructor
  · intro hcached
    rw [Catalog.isSome_get?_iff, keysOf_refreshResults, List.mem_append] at hcached
    rcases hcached with hkept | hloaded
    · rw [List.mem_filter, ← Catalog.isSome_get?_iff, List.contains_iff_mem, List.mem_map] at hkept
      exact .inl hkept
    · obtain ⟨⟨declaration, result⟩, hmem, rfl⟩ :=
        List.mem_map.1 (List.mem_eraseDups.1 hloaded)
      obtain ⟨hmem, hnew⟩ := List.mem_filter.1 hmem
      simp only [newlyLoaded, Bool.and_eq_true, decide_eq_true_eq, Option.isNone_iff_eq_none,
        known?_eq_none_iff] at hnew
      obtain ⟨⟨hkind, hok⟩, haliased, -⟩ := hnew
      cases result with
      | error error => cases hok
      | ok definition => exact .inr ⟨declaration, definition, hmem, hkind, rfl, haliased⟩
  · rintro (⟨hcached, hkept⟩ | ⟨declaration, definition, hmem, rfl, rfl, haliased⟩)
    · rw [Catalog.isSome_get?_iff, keysOf_refreshResults, List.mem_append]
      left
      rw [List.mem_filter, ← Catalog.isSome_get?_iff, List.contains_iff_mem, List.mem_map]
      exact ⟨hcached, hkept⟩
    · rw [get?_refreshResults_of_ok hmem haliased]
      rfl

/-- What a refresh does to a session, whatever happened before. A key is cached afterwards if it was
cached and some import of either kind has it, or if an import of its kind succeeded without the
alias table. Kept entries keep their instances and their order, and what was loaded follows in the
order of the imports. One line is logged for each entry that was dropped. -/
theorem refreshResults_effect (session : Session) (files : FileSystem)
    (imports : List ImportDeclaration) :
    let refreshed := session.refreshResults files imports
    refreshed.value.length = imports.length ∧
    (∀ kind key, (refreshed.session.cache.get? kind key).isSome ↔
      ((session.cache.get? kind key).isSome ∧ ∃ declaration ∈ imports, declaration.key = key) ∨
      ∃ declaration definition, (declaration, .ok definition) ∈ imports.zip refreshed.value ∧
        declaration.kind = kind ∧ declaration.key = key ∧
        session.aliased? declaration = none) ∧
    (∀ kind key definition, session.cache.get? kind key = some definition →
      (∃ declaration ∈ imports, declaration.key = key) →
      refreshed.session.cache.get? kind key = some definition) ∧
    (∀ declaration definition, (declaration, .ok definition) ∈ imports.zip refreshed.value →
      session.aliased? declaration = none →
      refreshed.session.cache.get? declaration.kind declaration.key = some definition) ∧
    (∀ kind, refreshed.session.cache.keysOf kind =
      (session.cache.keysOf kind).filter (imports.map (·.key)).contains ++
        session.loadedKeys kind (imports.zip refreshed.value)) ∧
    refreshed.session.aliases = session.aliases ∧
    refreshed.session.ignoredAliases = session.ignoredAliases ∧
    refreshed.log.filter LogLine.isEviction =
      (session.cache.keys.filter fun entry => !(imports.map (·.key)).contains entry.2).map
        fun entry => evictionLine entry.1 entry.2 := by
  have hgrown := grown_resolveAll (session.evicted imports) files imports
  refine ⟨length_resolveAll_value _ files imports, ?_, ?_, ?_, ?_, hgrown.aliases,
    hgrown.ignoredAliases, filter_isEviction_refreshResults session files imports⟩
  · exact isSome_get?_refreshResults_iff session files imports
  · intro kind key definition hcached hkept
    obtain ⟨declaration, hmem, rfl⟩ := hkept
    apply hgrown.kept
    rw [get?_evicted hmem]
    exact hcached
  · intro declaration definition hmem haliased
    exact get?_refreshResults_of_ok hmem haliased
  · exact keysOf_refreshResults session files imports

/-! ## Refreshing twice -/

/-- The two sessions answer every import in the same way: they differ at most in indirections,
ignored aliases and counts. -/
structure SameAnswers (a b : Session) : Prop where
  settings : b.settings = a.settings
  cache : b.cache = a.cache
  aliases : b.aliases = a.aliases
  bundle : b.bundle = a.bundle

namespace SameAnswers

variable {a b c : Session}

theorem refl (session : Session) : SameAnswers session session := ⟨rfl, rfl, rfl, rfl⟩

theorem trans (hab : SameAnswers a b) (hbc : SameAnswers b c) : SameAnswers a c where
  settings := hbc.settings.trans hab.settings
  cache := hbc.cache.trans hab.cache
  aliases := hbc.aliases.trans hab.aliases
  bundle := hbc.bundle.trans hab.bundle

theorem settled (h : SameAnswers a b) {files : FileSystem} {declaration : ImportDeclaration}
    {result : Except ResolveError Definition} (hsettled : Settled files a declaration result) :
    Settled files b declaration result := by
  have hknown : b.known? declaration = a.known? declaration := by
    unfold known?
    rw [h.cache, h.aliases]
  have hloaded : b.loadedDocument files = a.loadedDocument files :=
    loadedDocument_congr h.settings (bundledDocument?_of_same_bundle files h.settings h.bundle)
  unfold Settled at hsettled ⊢
  rw [hknown, hloaded, h.bundle]
  exact hsettled

end SameAnswers

/-- Whether an import failed after its file was found: the file could not be read or parsed, or it
holds a document of another kind. A bundled definition of another kind does not count. -/
def failedReading (session : Session) : Outcome → Bool
  | (_, .error (.unresolvedImport _ (.unreadable _))) => true
  | (_, .error (.unresolvedImport _ (.malformed _))) => true
  | (declaration, .error (.unresolvedImport _ (.kindMismatch _ _))) =>
    (session.bundled? (declaration.kind.bundleLocation declaration.path)).isNone
  | _ => false

theorem SameAnswers.failedReading {a b : Session} (h : SameAnswers a b) :
    b.failedReading = a.failedReading := by
  funext outcome
  unfold Session.failedReading bundled?
  rw [h.bundle]

theorem failedReading_of_importedDocument {session : Session} {files : FileSystem}
    {declaration : ImportDeclaration} {file : Path} {reason : ImportFailure}
    (hbundled : session.bundled? (declaration.kind.bundleLocation declaration.path) = none)
    (h : files.importedDocument declaration.kind declaration.key file = .error reason) :
    session.failedReading (declaration, .error (.unresolvedImport declaration.key reason)) =
      true := by
  unfold FileSystem.importedDocument at h
  split at h
  · next error _ =>
    cases error with
    | unreadable path cause =>
      cases h
      rfl
    | malformed path cause =>
      cases h
      rfl
  · next document _ =>
    unfold Document.ofKind at h
    split at h
    · cases h
    · cases h
      simp only [failedReading, hbundled, Option.isNone_none]

/-- Loading goes to a file in vain exactly if the failure shows it. -/
theorem readsFile_eq_failedReading {session : Session} {files : FileSystem}
    {declaration : ImportDeclaration} {reason : ImportFailure} (hbundle : session.bundle.isSome)
    (h : session.loadedDocument files declaration.kind declaration.key = .error reason) :
    session.readsFile files declaration.kind declaration.key =
      session.failedReading (declaration, .error (.unresolvedImport declaration.key reason)) := by
  obtain ⟨bundle, hsome⟩ := Option.isSome_iff_exists.1 hbundle
  have hbundled : session.bundledDocument? files
        (declaration.kind.bundleLocation declaration.key.path) =
      (session.bundled? (declaration.kind.bundleLocation declaration.path)).map
        Definition.document := by
    unfold bundledDocument?
    rw [ensureBundle_of_bundle files hsome]
    rfl
  unfold loadedDocument at h
  unfold readsFile
  rw [hbundled] at h ⊢
  cases hfound : session.bundled? (declaration.kind.bundleLocation declaration.path) with
  | some definition =>
    rw [hfound] at h
    simp only [Option.map_some, Document.ofKind] at h
    split at h
    · cases h
    · cases h
      simp only [failedReading, hfound, Option.map_some, Option.isNone_some, Bool.false_and]
  | none =>
    rw [hfound] at h
    cases hlocated : session.settings.locate files declaration.key.path with
    | none =>
      rw [hlocated] at h
      cases h
      rfl
    | some file =>
      rw [hlocated] at h
      rw [failedReading_of_importedDocument hfound h]
      rfl

/-- Asking a settled session once more gives the same result and changes no later answer. -/
theorem resolve_of_settled {session : Session} {files : FileSystem}
    {declaration : ImportDeclaration} {result : Except ResolveError Definition}
    (h : Settled files session declaration result) :
    (session.resolve files declaration).value = result ∧
      SameAnswers session (session.resolve files declaration).session ∧
      (session.resolve files declaration).session.loadCount =
        session.loadCount + if session.failedReading (declaration, result) then 1 else 0 := by
  cases result with
  | ok definition =>
    have hknown : session.known? declaration = some definition := h
    have hresolve : session.resolve files declaration =
        { value := .ok definition, session := session } := by
      simp only [resolve, hknown]
    rw [hresolve]
    exact ⟨rfl, .refl session, rfl⟩
  | error error =>
    obtain ⟨reason, rfl, hknown, hbundle, hloaded⟩ := h
    obtain ⟨bundle, hsome⟩ := Option.isSome_iff_exists.1 hbundle
    obtain ⟨indirections, nextId, hload⟩ := load_session session files declaration
    have hreads := readsFile_eq_failedReading hbundle hloaded
    have hready := ensureBundle_of_bundle files hsome
    rcases resolve_cases session files declaration with
      ⟨definition, hfound, -⟩ | ⟨definition, -, -, hfound, -⟩ | ⟨other, -, hfound, hresolve⟩
    · rw [hknown] at hfound
      cases hfound
    · rw [hloaded] at hfound
      cases hfound
    · rw [hloaded] at hfound
      cases hfound
      rw [hresolve, hload, hready, hreads]
      exact ⟨rfl, ⟨rfl, rfl, rfl, rfl⟩, rfl⟩

theorem resolveAll_of_settled {session : Session} {files : FileSystem} (outcomes : List Outcome)
    (h : ∀ outcome ∈ outcomes, Settled files session outcome.1 outcome.2) :
    (session.resolveAll files (outcomes.map Prod.fst)).value = outcomes.map Prod.snd ∧
      SameAnswers session (session.resolveAll files (outcomes.map Prod.fst)).session ∧
      (session.resolveAll files (outcomes.map Prod.fst)).session.loadCount =
        session.loadCount + outcomes.countP session.failedReading := by
  induction outcomes generalizing session with
  | nil => exact ⟨rfl, .refl session, rfl⟩
  | cons outcome rest ih =>
    obtain ⟨declaration, result⟩ := outcome
    have hfirst : Settled files session declaration result := h _ List.mem_cons_self
    obtain ⟨hvalue, hsame, hcount⟩ := resolve_of_settled hfirst
    obtain ⟨hvalues, hsames, hcounts⟩ := ih fun later hlater =>
      hsame.settled (h later (List.mem_cons_of_mem _ hlater))
    rw [List.map_cons, List.map_cons, resolveAll, List.countP_cons]
    refine ⟨by rw [hvalue, hvalues], hsame.trans hsames, ?_⟩
    rw [hsame.failedReading, hcount] at hcounts
    exact hcounts.trans (by omega)

theorem mem_keys_of_mem_keysOf_refreshResults {session : Session} {files : FileSystem}
    {imports : List ImportDeclaration} {kind : DefinitionKind} {key : ImportKey}
    (h : key ∈ (session.refreshResults files imports).session.cache.keysOf kind) :
    (imports.map (·.key)).contains key = true := by
  rw [List.contains_iff_mem, List.mem_map]
  rw [← Catalog.isSome_get?_iff, isSome_get?_refreshResults_iff] at h
  rcases h with ⟨-, hkept⟩ | ⟨declaration, definition, hmem, -, hkey, -⟩
  · exact hkept
  · exact ⟨declaration, (List.of_mem_zip hmem).1, hkey⟩

theorem evicted_refreshResults (session : Session) (files : FileSystem)
    (imports : List ImportDeclaration) :
    (session.refreshResults files imports).session.evicted imports =
      (session.refreshResults files imports).session := by
  have hcache : ((session.refreshResults files imports).session.cache.retain
      (imports.map (·.key)).contains).2 = (session.refreshResults files imports).session.cache :=
    Catalog.retain_eq_self fun _ _ => mem_keys_of_mem_keysOf_refreshResults
  simp only [evicted, evictExcept]
  rw [hcache]

/-- A refresh is idempotent: over the same files, a second one with the same imports gives the same
instances and errors, leaves cache, alias table and bundle as they are and evicts nothing. It goes
to the files of those imports again that failed after their file was found. -/
theorem refreshResults_idempotent (session : Session) (files : FileSystem)
    (imports : List ImportDeclaration) :
    let first := session.refreshResults files imports
    let second := first.session.refreshResults files imports
    second.value = first.value ∧
    second.session.cache = first.session.cache ∧
    second.session.aliases = first.session.aliases ∧
    second.session.bundle = first.session.bundle ∧
    second.log.filter LogLine.isEviction = [] ∧
    second.session.loadCount = first.session.loadCount +
      (imports.zip first.value).countP first.session.failedReading := by
  intro first second
  have hlength : imports.length = first.value.length :=
    (length_resolveAll_value (session.evicted imports) files imports).symm
  obtain ⟨hvalue, hsame, hcount⟩ := resolveAll_of_settled (imports.zip first.value)
    (settled_resolveAll (session.evicted imports) files imports)
  rw [List.map_fst_zip (Nat.le_of_eq hlength)] at hvalue hsame hcount
  rw [List.map_snd_zip (Nat.le_of_eq hlength.symm)] at hvalue
  have hsecond : second.session = (first.session.resolveAll files imports).session := by
    rw [refreshResults_session, evicted_refreshResults]
  rw [hsecond]
  refine ⟨?_, hsame.cache, hsame.aliases, hsame.bundle, ?_, hcount⟩
  · rw [refreshResults_value, evicted_refreshResults]
    exact hvalue
  · rw [filter_isEviction_refreshResults,
      Catalog.dropped_eq_nil fun _ _ => mem_keys_of_mem_keysOf_refreshResults]
    rfl

end Session

end CrossModel
