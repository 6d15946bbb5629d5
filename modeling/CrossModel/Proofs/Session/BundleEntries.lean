import CrossModel.Proofs.Session.Loading
import Mathlib.Data.List.Basic

/-!
# Entries of a bundle

Reading a bundle lists an entry for each file that holds a document, folder by folder and in the
order of the paths. Registering the entries keeps, for each location, the last one that holds a
platform or a library. So the bundle of a session that had none is a function of this list.
-/

namespace CrossModel

/-- Whether an entry gives a location its definition: execution models give none. -/
def BundleEntry.defines (location : String) (entry : BundleEntry) : Bool :=
  entry.location = location ∧ entry.document.kind ≠ .execution

/-! ## Registration -/

/-- Of the entries that define a location, the last one counts. -/
theorem Bundle.find?_register (bundle : Bundle) (id : Nat) (entries : List BundleEntry)
    (location : String) :
    ((bundle.register id entries).1.find? location).map Definition.document =
      ((entries.filter (·.defines location)).getLast?.map (·.document)).or
        ((bundle.find? location).map Definition.document) := by
  induction entries generalizing bundle id with
  | nil => rfl
  | cons entry rest ih =>
    cases hdefinition : Definition.ofDocument? id entry.document with
    | none =>
      have hother : entry.defines location = false := by
        simp [BundleEntry.defines, Definition.ofDocument?_eq_none hdefinition]
      rw [List.filter_cons_of_neg (by simp [hother])]
      simp only [register, hdefinition]
      exact ih bundle id
    | some definition =>
      obtain ⟨hdocument, hkind⟩ := Definition.ofDocument?_eq_some hdefinition
      simp only [register, hdefinition]
      rw [ih]
      by_cases hlocation : entry.location = location
      · have hdefines : entry.defines location = true := by
          simp [BundleEntry.defines, hlocation, hkind]
        have hfound : (Bundle.mk (bundle.definitions.insert entry.location definition)).find?
            location = some definition := by
          rw [find?, OrderedMap.get?_insert, if_pos hlocation]
        rw [List.filter_cons_of_pos hdefines, List.getLast?_cons, hfound]
        cases (rest.filter (·.defines location)).getLast? <;> simp [hdocument]
      · have hother : entry.defines location = false := by
          simp [BundleEntry.defines, hlocation]
        have hfound : (Bundle.mk (bundle.definitions.insert entry.location definition)).find?
            location = bundle.find? location := by
          rw [find?, OrderedMap.get?_insert, if_neg hlocation]
          rfl
        rw [List.filter_cons_of_neg (by simp [hother]), hfound]

/-! ## Entries of files -/

namespace BundleScan

/-- The entry of a file, if it holds a document. -/
def ofFile? (files : FileSystem) (kind : DefinitionKind) (path : Path) : Option BundleEntry :=
  path.fileName?.bind fun name =>
    (files.loadDocument path (kind.bundleSpace ++ name)).toOption.map
      (BundleEntry.mk (kind.bundleSpace ++ name))

/-- The paths of the files in a folder of a bundle, in their order. -/
def folderPaths (files : FileSystem) (root : Path) (kind : DefinitionKind) : List Path :=
  (files.collect (root.join kind.bundleFolder) kind.extension).toOption.getD []

theorem entries_readFile (files : FileSystem) (kind : DefinitionKind) (path : Path) :
    (readFile files kind path).entries = (ofFile? files kind path).toList := by
  unfold readFile ofFile?
  cases path.fileName? with
  | none => rfl
  | some name =>
    simp only [Option.bind_some]
    cases files.loadDocument path (kind.bundleSpace ++ name) <;> rfl

theorem entries_ofFolder (files : FileSystem) (root : Path) (kind : DefinitionKind) :
    (ofFolder files root kind).entries = (folderPaths files root kind).filterMap
      (ofFile? files kind) := by
  unfold ofFolder folderPaths
  simp only
  cases files.collect (root.join kind.bundleFolder) kind.extension with
  | error error => rfl
  | ok paths =>
    simp only [List.flatMap_map, entries_readFile, Except.toOption, Option.getD_some]
    exact (List.filterMap_eq_flatMap_toList _ _).symm

/-- An entry is located at the name of its file, and holds the document in it. -/
theorem ofFile?_eq_some_iff {files : FileSystem} {kind : DefinitionKind} {path : Path}
    {entry : BundleEntry} :
    ofFile? files kind path = some entry ↔ ∃ name text, path.fileName? = some name ∧
      entry.location = kind.bundleSpace ++ name ∧ files.readText path = .ok text ∧
      Document.parse text entry.location = .ok entry.document := by
  unfold ofFile? FileSystem.loadDocument
  obtain ⟨location, document⟩ := entry
  cases path.fileName? with
  | none => simp
  | some name =>
    cases files.readText path with
    | error error => simp [Except.toOption]
    | ok text =>
      simp only [Option.bind_some, Option.some.injEq, Except.ok.injEq]
      cases hparse : Document.parse text (kind.bundleSpace ++ name) with
      | error error =>
        simp only [Except.toOption, Option.map_none, reduceCtorEq, false_iff, not_exists]
        rintro _ _ ⟨rfl, rfl, rfl, h⟩
        rw [hparse] at h
        cases h
      | ok found =>
        simp only [Except.toOption, Option.map_some, Option.some.injEq, BundleEntry.mk.injEq]
        constructor
        · rintro ⟨rfl, rfl⟩
          exact ⟨name, text, rfl, rfl, rfl, hparse⟩
        · rintro ⟨_, _, rfl, rfl, rfl, h⟩
          rw [hparse] at h
          cases h
          exact ⟨rfl, rfl⟩

theorem mem_entries_ofRoot {files : FileSystem} {root : Path} {entry : BundleEntry} :
    entry ∈ (ofRoot files root).entries ↔
      ∃ kind, ∃ path ∈ folderPaths files root kind, ofFile? files kind path = some entry := by
  have happend : (ofRoot files root).entries =
      (ofFolder files root .platform).entries ++ (ofFolder files root .library).entries := rfl
  rw [happend, List.mem_append, entries_ofFolder, entries_ofFolder, List.mem_filterMap,
    List.mem_filterMap]
  constructor
  · rintro (h | h)
    · exact ⟨.platform, h⟩
    · exact ⟨.library, h⟩
  · rintro ⟨kind, h⟩
    cases kind with
    | platform => exact .inl h
    | library => exact .inr h

end BundleScan

/-! ## The bundle of a session -/

namespace Session

/-- The bundle that a session without one reads: for each location, the document of the last entry
that defines it. -/
theorem bundledDocument?_of_none {session : Session} (hbundle : session.bundle = none)
    (files : FileSystem) (location : String) :
    session.bundledDocument? files location = session.settings.bundleRoot.bind fun root =>
      ((BundleScan.ofRoot files root).entries.filter (·.defines location)).getLast?.map
        (·.document) := by
  unfold bundledDocument? bundled?
  rw [bundle_ensureBundle_of_none files hbundle, Option.bind_some]
  cases session.settings.bundleRoot with
  | none => rfl
  | some root =>
    have hempty : (Bundle.empty.find? location).map Definition.document = none := rfl
    rw [Bundle.find?_register, hempty, Option.or_none, Option.bind_some]

/-- Bundled documents were read from a text at their location. -/
theorem parse_of_bundledDocument? {session : Session} {files : FileSystem} {location : String}
    {document : Document} (hbundle : session.bundle = none)
    (h : session.bundledDocument? files location = some document) :
    document.kind ≠ .execution ∧ ∃ text, Document.parse text location = .ok document := by
  rw [bundledDocument?_of_none hbundle] at h
  obtain ⟨root, -, h⟩ := Option.bind_eq_some_iff.1 h
  obtain ⟨entry, hlast, rfl⟩ := Option.map_eq_some_iff.1 h
  obtain ⟨hmem, hdefines⟩ := List.mem_filter.1 (List.mem_of_getLast? hlast)
  obtain ⟨rfl, hkind⟩ := of_decide_eq_true hdefines
  obtain ⟨kind, path, -, hentry⟩ := BundleScan.mem_entries_ofRoot.1 hmem
  obtain ⟨name, text, -, -, -, hparse⟩ := BundleScan.ofFile?_eq_some_iff.1 hentry
  exact ⟨hkind, text, hparse⟩

end Session

end CrossModel
