import CrossModel.Proofs.Session.AliasedImport
import CrossModel.Proofs.Session.BundleContents
import CrossModel.Proofs.Session.FrozenBundle
import CrossModel.Proofs.Session.Stability

/-!
# Imports from the bundle

An import that is neither aliased nor cached is answered by the bundle if a bundled file has its
name, with or without the extension of its kind. The bundle then decides alone: no file is looked
for, even if the bundled definition is of the wrong kind. An import that the bundle does not answer
makes a definition of its own. That the two can be told apart rests on an invariant of the run:
bundled files have the extension of their folder, their definitions know their locations, and their
numbers have been given away (`BundleFiled`).
-/

namespace CrossModel

/-! ## Names of bundled files -/

namespace DefinitionKind

/-- The name ends in a dot and the extension of the kind. -/
def HasExtension (kind : DefinitionKind) (name : String) : Prop :=
  ∃ stem, name = stem ++ "." ++ kind.extension

/-- An import with this path is one of the bundled file with this name: the path is the name, or it
lacks the extension and is the name without it. -/
def AsksFor (kind : DefinitionKind) (path name : String) : Prop :=
  path = name ∨ ¬kind.HasExtension path ∧ path ++ "." ++ kind.extension = name

theorem isSuffixOf_iff_hasExtension (kind : DefinitionKind) (path : String) :
    ("." ++ kind.extension).toList.isSuffixOf path.toList = true ↔ kind.HasExtension path := by
  rw [List.isSuffixOf_iff_suffix]
  constructor
  · rintro ⟨stem, hstem⟩
    refine ⟨String.ofList stem, ?_⟩
    rw [← String.toList_inj, ← hstem]
    simp
  · rintro ⟨stem, rfl⟩
    exact ⟨stem.toList, by simp⟩

theorem bundleLocation_of_hasExtension {kind : DefinitionKind} {path : String}
    (h : kind.HasExtension path) : kind.bundleLocation path = kind.bundleSpace ++ path := by
  rw [bundleLocation, if_pos ((isSuffixOf_iff_hasExtension kind path).2 h)]

theorem bundleLocation_of_not_hasExtension {kind : DefinitionKind} {path : String}
    (h : ¬kind.HasExtension path) :
    kind.bundleLocation path = kind.bundleSpace ++ (path ++ "." ++ kind.extension) := by
  have hsuffix : ¬("." ++ kind.extension).toList.isSuffixOf path.toList = true :=
    fun hsuffix => h ((isSuffixOf_iff_hasExtension kind path).1 hsuffix)
  rw [bundleLocation, if_neg hsuffix, @String.append_assoc path]

theorem bundleLocation_of_asksFor {kind : DefinitionKind} {path name : String}
    (h : kind.AsksFor path name) (hname : kind.HasExtension name) :
    kind.bundleLocation path = kind.bundleSpace ++ name := by
  rcases h with rfl | ⟨hpath, rfl⟩
  · exact bundleLocation_of_hasExtension hname
  · exact bundleLocation_of_not_hasExtension hpath

/-- Every import is one of some bundled file, whether there is one or not. -/
theorem exists_asksFor (kind : DefinitionKind) (path : String) :
    ∃ name, kind.AsksFor path name ∧ kind.bundleLocation path = kind.bundleSpace ++ name := by
  by_cases h : kind.HasExtension path
  · exact ⟨path, .inl rfl, bundleLocation_of_hasExtension h⟩
  · exact ⟨_, .inr ⟨h, rfl⟩, bundleLocation_of_not_hasExtension h⟩

end DefinitionKind

/-- The files in the folder of a bundle have the extension of its kind. -/
theorem BundleScan.hasExtension_of_mem_folderPaths {files : FileSystem} {root : Path}
    {kind : DefinitionKind} {path : Path} {name : String} (h : path ∈ folderPaths files root kind)
    (hname : path.fileName? = some name) : kind.HasExtension name := by
  have hextension : path.extension? = some kind.extension := by
    unfold folderPaths FileSystem.collect at h
    cases hbelow : files.filesBelow (root.join kind.bundleFolder) with
    | error error =>
      rw [hbelow] at h
      cases h
    | ok found =>
      rw [hbelow] at h
      simp only [Except.map, Except.toOption, Option.getD_some, List.mem_mergeSort,
        List.mem_filter, decide_eq_true_eq] at h
      exact h.2
  have hdot : '.' ∉ kind.extension.toList := by
    cases kind <;> decide
  obtain ⟨stem, -, hstem⟩ := (Path.extension?_eq_some_iff hname hdot).1 hextension
  exact ⟨stem, hstem⟩

/-! ## Numbers of bundled definitions -/

theorem Definition.id_of_ofDocument? {id : Nat} {document : Document} {definition : Definition}
    (h : ofDocument? id document = some definition) : definition.id = id := by
  cases document with
  | platform content => cases h; rfl
  | library content => cases h; rfl
  | execution content => cases h

/-- Registering entries gives away all numbers up to the next one. -/
theorem Bundle.id_lt_of_find?_register {bundle : Bundle} {id : Nat} {entries : List BundleEntry}
    (hbundle : ∀ location definition, bundle.find? location = some definition →
      definition.id < id) {location : String} {definition : Definition}
    (h : (bundle.register id entries).1.find? location = some definition) :
    definition.id < (bundle.register id entries).2 := by
  induction entries generalizing bundle id with
  | nil => exact hbundle location definition h
  | cons entry rest ih =>
    rw [register] at h ⊢
    cases hmade : Definition.ofDocument? id entry.document with
    | none =>
      rw [hmade] at h
      exact ih hbundle h
    | some made =>
      rw [hmade] at h
      refine ih ?_ h
      intro place found hfound
      rw [find?, OrderedMap.get?_insert] at hfound
      split at hfound
      · cases hfound
        rw [Definition.id_of_ofDocument? hmade]
        exact Nat.lt_succ_self id
      · exact Nat.lt_succ_of_lt (hbundle place found hfound)

namespace Session

variable {session earlier later : Session}

/-- The bundle of a session is filed as bundles are: its locations are those of files with the
extension of their kind, its definitions know their locations, and no definition that is still to
be made will have the number of one of them. -/
structure BundleFiled (session : Session) : Prop where
  named : ∀ {location definition}, session.bundled? location = some definition →
    ∃ kind name, DefinitionKind.HasExtension kind name ∧ location = kind.bundleSpace ++ name
  located : ∀ {location definition}, session.bundled? location = some definition →
    definition.location = location
  numbered : ∀ {location definition}, session.bundled? location = some definition →
    definition.id < session.nextId

namespace BundleFiled

theorem of_no_bundle (h : session.bundle = none) : session.BundleFiled := by
  have hnone : ∀ location, session.bundled? location = none := by
    intro location
    rw [bundled?, h, Option.bind_none]
  constructor <;> intro location definition hfound <;> rw [hnone] at hfound <;> cases hfound

theorem of_same_bundle (h : earlier.BundleFiled) (hbundle : later.bundle = earlier.bundle)
    (hnextId : earlier.nextId ≤ later.nextId) : later.BundleFiled := by
  have hbundled : later.bundled? = earlier.bundled? := by
    funext location
    rw [bundled?, hbundle, bundled?]
  refine ⟨fun hfound => ?_, fun hfound => ?_, fun hfound => ?_⟩
  · exact h.named (hbundled ▸ hfound)
  · exact h.located (hbundled ▸ hfound)
  · exact Nat.lt_of_lt_of_le (h.numbered (hbundled ▸ hfound)) hnextId

end BundleFiled

/-! ## Reading the bundle -/

theorem id_lt_of_ensureBundle (h : session.bundle = none) {files : FileSystem}
    {location : String} {definition : Definition}
    (hfound : (session.ensureBundle files).session.bundled? location = some definition) :
    definition.id < (session.ensureBundle files).session.nextId := by
  have hempty : ∀ place found, Bundle.empty.find? place = some found →
      found.id < session.nextId := by
    intro place found hnone
    cases hnone
  cases hroot : session.settings.bundleRoot with
  | none =>
    simp only [ensureBundle, h, hroot] at hfound
    cases hfound
  | some root =>
    simp only [ensureBundle, h, hroot, bundled?, Option.bind_some] at hfound ⊢
    exact Bundle.id_lt_of_find?_register hempty hfound

theorem named_ensureBundle_of_none (h : session.bundle = none) {files : FileSystem}
    {location : String} {definition : Definition}
    (hfound : (session.ensureBundle files).session.bundled? location = some definition) :
    definition.location = location ∧
      ∃ kind name, DefinitionKind.HasExtension kind name ∧ location = kind.bundleSpace ++ name := by
  have hdocument : session.bundledDocument? files location = some definition.document :=
    congrArg (Option.map Definition.document) hfound
  obtain ⟨-, text, hparse⟩ := parse_of_bundledDocument? h hdocument
  refine ⟨Document.location_of_parse hparse, ?_⟩
  rw [bundledDocument?_of_none h] at hdocument
  obtain ⟨root, -, hlast⟩ := Option.bind_eq_some_iff.1 hdocument
  obtain ⟨entry, hentry, -⟩ := Option.map_eq_some_iff.1 hlast
  obtain ⟨hmem, hdefines⟩ := List.mem_filter.1 (List.mem_of_getLast? hentry)
  obtain ⟨kind, path, hpath, hfile⟩ := BundleScan.mem_entries_ofRoot.1 hmem
  obtain ⟨name, -, hname, hlocation, -⟩ := BundleScan.ofFile?_eq_some_iff.1 hfile
  rw [(of_decide_eq_true hdefines).1] at hlocation
  exact ⟨kind, name, BundleScan.hasExtension_of_mem_folderPaths hpath hname, hlocation⟩

theorem BundleFiled.ensureBundle (h : session.BundleFiled) (files : FileSystem) :
    (session.ensureBundle files).session.BundleFiled := by
  cases hbundle : session.bundle with
  | some bundle =>
    rw [ensureBundle_of_bundle files hbundle]
    exact h
  | none =>
    refine ⟨fun hfound => ?_, fun hfound => ?_, fun hfound => ?_⟩
    · exact (named_ensureBundle_of_none hbundle hfound).2
    · exact (named_ensureBundle_of_none hbundle hfound).1
    · exact id_lt_of_ensureBundle hbundle hfound

/-! ## Steps and runs -/

theorem nextId_load (session : Session) (files : FileSystem) (declaration : ImportDeclaration) :
    (session.ensureBundle files).session.nextId ≤
      (session.load files declaration).session.nextId := by
  cases hbundled : (session.ensureBundle files).session.bundled?
      (declaration.kind.bundleLocation declaration.key.path) with
  | some definition => exact Nat.le_of_eq (by rw [load_of_bundled hbundled])
  | none =>
    cases hlocated : session.settings.locate files declaration.key.path with
    | none => exact Nat.le_of_eq (by rw [load_of_not_located hbundled hlocated])
    | some file =>
      obtain ⟨indirections, hplaced⟩ :=
        placeImport_session (session.ensureBundle files).session declaration file
      rw [load_of_located hbundled hlocated, loadFile, hplaced]
      exact Nat.le_succ _

namespace BundleFiled

theorem load (h : session.BundleFiled) (files : FileSystem) (declaration : ImportDeclaration) :
    (session.load files declaration).session.BundleFiled :=
  (h.ensureBundle files).of_same_bundle (bundle_load session files declaration)
    (nextId_load session files declaration)

theorem resolve (h : session.BundleFiled) (files : FileSystem)
    (declaration : ImportDeclaration) :
    (session.resolve files declaration).session.BundleFiled := by
  have hload := h.load files declaration
  rcases resolve_cases session files declaration with
    ⟨definition, -, hresolve⟩ | ⟨definition, -, -, -, hresolve⟩ | ⟨reason, -, -, hresolve⟩
  · rw [hresolve]
    exact h
  · rw [hresolve]
    exact hload.of_same_bundle rfl (Nat.le_refl _)
  · rw [hresolve]
    exact hload

theorem resolveAll (h : session.BundleFiled) (files : FileSystem)
    (imports : List ImportDeclaration) :
    (session.resolveAll files imports).session.BundleFiled := by
  induction imports generalizing session with
  | nil => exact h
  | cons declaration rest ih => exact ih (h.resolve files declaration)

theorem perform (h : session.BundleFiled) (files : FileSystem) (operation : Operation) :
    (session.perform files operation).BundleFiled := by
  cases hrefreshed : operation.refreshed? with
  | some imports =>
    rw [perform_of_refreshed? hrefreshed, refreshResults_session]
    have hevicted : (session.evicted imports).BundleFiled :=
      h.of_same_bundle rfl (Nat.le_refl _)
    exact hevicted.resolveAll files imports
  | none =>
    cases operation with
    | resolve declaration => exact h.resolve files declaration
    | ensureBundle => exact h.ensureBundle files
    | ignoreAlias name =>
      apply h.of_same_bundle (bundle_ignoreAlias session name)
      simp only [ignoreAlias]
      split <;> exact Nat.le_refl _
    | adopt document => exact h.of_same_bundle rfl (Nat.le_succ _)
    | registerAlias name definition => exact h.of_same_bundle rfl (Nat.le_refl _)
    | registerImport path aliasName definition => exact h.of_same_bundle rfl (Nat.le_refl _)
    | updateImport definition => exact h.of_same_bundle rfl (Nat.le_refl _)
    | reset => exact .of_no_bundle rfl
    | _ => cases hrefreshed

end BundleFiled

theorem bundleFiled_run (settings : Settings) (history : List (FileSystem × Operation)) :
    ((start settings).run history).BundleFiled := by
  apply run_induction
  · exact .of_no_bundle rfl
  · intro step _ before hbefore
    exact hbefore.perform step.1 step.2

/-! ## Answers from the bundle -/

section Answers

variable {files : FileSystem} {declaration : ImportDeclaration} {definition : Definition}

/-- The answer of a bundle that has been read: its definition if the kind is right, and otherwise
the failure that the kind is wrong. Nothing but the cache changes. -/
theorem resolve_of_bundled {bundle : Bundle} (hbundle : session.bundle = some bundle)
    (hunknown : session.known? declaration = none)
    (hbundled : session.bundled? (declaration.kind.bundleLocation declaration.path) =
      some definition) (files : FileSystem) :
    session.resolve files declaration =
      if definition.kind = declaration.kind then
        { value := .ok definition
          session := session.registerImport declaration.key definition }
      else
        let error := ResolveError.unresolvedImport declaration.key
          (.kindMismatch declaration.kind (.definition definition.kind))
        { value := .error error, session, log := [.error error.message] } := by
  have hready := ensureBundle_of_bundle files hbundle
  have hfound : (session.ensureBundle files).session.bundled?
      (declaration.kind.bundleLocation declaration.key.path) = some definition := by
    rw [hready]
    exact hbundled
  have hload := load_of_bundled hfound
  rw [hready] at hload
  rw [resolve, hunknown]
  simp only [hload]
  by_cases hkind : definition.kind = declaration.kind
  · simp only [if_pos hkind]
  · simp only [if_neg hkind, List.nil_append]

theorem id_of_readDefinition {kind : DefinitionKind} {file : Path} {location : String}
    (h : session.readDefinition files kind file location = .ok definition) :
    definition.id = session.nextId := by
  unfold readDefinition at h
  split at h
  · cases h
  · split at h
    · next made hmade =>
      split at h
      · cases h
        exact Definition.id_of_ofDocument? hmade
      · cases h
    · cases h

/-- An import that neither the session nor its bundle answers makes a definition with the next
number. -/
theorem id_of_resolve {bundle : Bundle} (hbundle : session.bundle = some bundle)
    (hunknown : session.known? declaration = none)
    (hbundled : session.bundled? (declaration.kind.bundleLocation declaration.path) = none)
    (h : (session.resolve files declaration).value = .ok definition) :
    definition.id = session.nextId := by
  have hready := ensureBundle_of_bundle files hbundle
  have hnone : (session.ensureBundle files).session.bundled?
      (declaration.kind.bundleLocation declaration.key.path) = none := by
    rw [hready]
    exact hbundled
  have hloaded : (session.load files declaration).value = .ok definition := by
    rw [resolve, hunknown] at h
    simp only at h
    split at h
    · next found hfound =>
      rw [hfound]
      exact congrArg Except.ok (Except.ok.inj h)
    · cases h
  cases hlocated : session.settings.locate files declaration.key.path with
  | none =>
    rw [load_of_not_located hnone hlocated] at hloaded
    cases hloaded
  | some file =>
    rw [load_of_located hnone hlocated, hready] at hloaded
    have hid := id_of_readDefinition hloaded
    obtain ⟨indirections, hplaced⟩ := placeImport_session session declaration file
    rw [hplaced] at hid
    exact hid

end Answers

/-- In a reachable session that has read its bundle, an import that is neither aliased nor cached is
answered by the bundled file that it asks for, if there is one, whatever other files there are: with
the bundled definition, which is cached and keeps its location, or with the failure that this
definition is of the wrong kind. The alias targets and the number of loads stay as they are. If the
bundle has no such file, the answer is never a definition of the bundle. -/
theorem bundle_shadows_files (settings : Settings) (history : List (FileSystem × Operation))
    (declaration : ImportDeclaration)
    (hloaded : ((start settings).run history).isBundleLoaded = true)
    (hunknown : ((start settings).run history).known? declaration = none) :
    let session := (start settings).run history
    (∀ name definition, declaration.kind.AsksFor declaration.path name →
      session.bundled? (declaration.kind.bundleSpace ++ name) = some definition →
      definition.location = declaration.kind.bundleSpace ++ name ∧
      ∀ files, session.resolve files declaration =
        if definition.kind = declaration.kind then
          { value := .ok definition
            session := { session with
              cache := (session.cache.insert declaration.key definition).2 } }
        else
          let error := ResolveError.unresolvedImport declaration.key
            (.kindMismatch declaration.kind (.definition definition.kind))
          { value := .error error, session, log := [.error error.message] }) ∧
    ((∀ name, declaration.kind.AsksFor declaration.path name →
        session.bundled? (declaration.kind.bundleSpace ++ name) = none) →
      ∀ files definition, (session.resolve files declaration).value = .ok definition →
        ∀ location bundled, session.bundled? location = some bundled →
          definition.same bundled = false) := by
  intro session
  have hfiled : session.BundleFiled := bundleFiled_run settings history
  obtain ⟨bundle, hbundle⟩ := Option.isSome_iff_exists.1 hloaded
  constructor
  · intro name definition hasks hbundled
    have hname : declaration.kind.HasExtension name := by
      obtain ⟨kind, other, hother, hlocation⟩ := hfiled.named hbundled
      obtain ⟨rfl, rfl⟩ := DefinitionKind.bundleSpace_append_inj.1 hlocation
      exact hother
    refine ⟨hfiled.located hbundled, resolve_of_bundled hbundle hunknown ?_⟩
    rw [DefinitionKind.bundleLocation_of_asksFor hasks hname]
    exact hbundled
  · intro hnone files definition hresolve location bundled hbundled
    obtain ⟨name, hasks, hlocation⟩ := declaration.kind.exists_asksFor declaration.path
    have hid : definition.id = session.nextId := by
      apply id_of_resolve hbundle hunknown _ hresolve
      rw [hlocation]
      exact hnone name hasks
    have hne : definition.id ≠ bundled.id := by
      have hless := hfiled.numbered hbundled
      omega
    simp [Definition.same, hne]

/-- A bundled platform whose file has the extension twice, a platform among the bundled libraries,
and files of the same names next to them. -/
def shadowedFiles : FileSystem :=
  [("/home/plugins/platforms/Lamp.platform.platform", "platform Lamp"),
    ("/home/plugins/libraries/Odd.intent", "platform Odd"),
    ("/work/Lamp.platform", "platform Other"), ("/work/Odd", "library Odd")].foldl
    (fun files (path, text) => files.writeFile ⟨path⟩ text.toUTF8) .empty

def shadowedRun : List (FileSystem × Operation) :=
  [(shadowedFiles, .ensureBundle)]

/-- A session that has done nothing but read its bundle knows no imports. -/
theorem known?_run_ensureBundle (settings : Settings) (files : FileSystem)
    (declaration : ImportDeclaration) :
    ((start settings).run [(files, .ensureBundle)]).known? declaration = none := by
  rw [run, List.foldl_cons, List.foldl_nil, perform, known?_ensureBundle, known?_start]

theorem shadowedRun_evaluated :
    let session := (start bundleSettings).run shadowedRun
    session.isBundleLoaded = true ∧
    (session.bundled? (DefinitionKind.platform.bundleSpace ++ "Lamp.platform.platform")).map
      Definition.kind = some .platform ∧
    (session.bundled? (DefinitionKind.library.bundleSpace ++ "Odd.intent")).map
      Definition.kind = some .platform ∧
    session.bundled? (DefinitionKind.platform.bundleSpace ++ "Lamp.platform") = none ∧
    (session.resolve shadowedFiles
      ⟨.platform, "Lamp.platform", none, .zero⟩).value.isOk = true := by
  decide +kernel

/-- The bundle answers under the full name of the file and without the extension, and does not take
`Lamp.platform` for a name without extension. -/
theorem bundle_shadows_files_shadowedRun :
    let session := (start bundleSettings).run shadowedRun
    (∃ lamp, (session.resolve shadowedFiles
        ⟨.platform, "Lamp.platform.platform", some "lamp", .zero⟩).value = .ok lamp ∧
      lamp.location = DefinitionKind.platform.bundleSpace ++ "Lamp.platform.platform") ∧
    (session.resolve shadowedFiles ⟨.library, "Odd", none, .zero⟩).value =
      .error (.unresolvedImport ⟨"Odd", none⟩ (.kindMismatch .library (.definition .platform))) ∧
    ∃ other, (session.resolve shadowedFiles
        ⟨.platform, "Lamp.platform", none, .zero⟩).value = .ok other ∧
      ∀ location bundled, session.bundled? location = some bundled →
        other.same bundled = false := by
  intro session
  obtain ⟨hloaded, hlamp, hodd, hshort, hother⟩ := shadowedRun_evaluated
  have hunknown := known?_run_ensureBundle bundleSettings shadowedFiles
  refine ⟨?_, ?_, ?_⟩
  · obtain ⟨lamp, hfound, hkind⟩ := Option.map_eq_some_iff.1 hlamp
    obtain ⟨hanswer, -⟩ := bundle_shadows_files bundleSettings shadowedRun
      ⟨.platform, "Lamp.platform.platform", some "lamp", .zero⟩ hloaded (hunknown _)
    obtain ⟨hlocation, hresolve⟩ := hanswer _ lamp (.inl rfl) hfound
    refine ⟨lamp, ?_, hlocation⟩
    rw [hresolve, if_pos hkind]
  · obtain ⟨odd, hfound, hkind⟩ := Option.map_eq_some_iff.1 hodd
    obtain ⟨hanswer, -⟩ := bundle_shadows_files bundleSettings shadowedRun
      ⟨.library, "Odd", none, .zero⟩ hloaded (hunknown _)
    have hasks : DefinitionKind.library.AsksFor "Odd" "Odd.intent" := by
      right
      rw [← DefinitionKind.isSuffixOf_iff_hasExtension]
      decide +kernel
    obtain ⟨-, hresolve⟩ := hanswer _ odd hasks hfound
    rw [hresolve, if_neg (by simp [hkind]), hkind]
    rfl
  · obtain ⟨-, hanswer⟩ := bundle_shadows_files bundleSettings shadowedRun
      ⟨.platform, "Lamp.platform", none, .zero⟩ hloaded (hunknown _)
    cases hvalue : (session.resolve shadowedFiles
        ⟨.platform, "Lamp.platform", none, .zero⟩).value with
    | error error =>
      rw [hvalue] at hother
      cases hother
    | ok other =>
      refine ⟨other, rfl, hanswer ?_ shadowedFiles other hvalue⟩
      rintro name (rfl | ⟨hextension, -⟩)
      · exact hshort
      · exact absurd ⟨"Lamp", by decide⟩ hextension

end Session

end CrossModel
