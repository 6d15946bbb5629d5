import CrossModel.Proofs.Document.Location
import CrossModel.Proofs.Files.Below
import CrossModel.Proofs.Session.BundleEntries
import Mathlib.Data.List.Induction

/-!
# Contents of a bundle

The bundle of a session is told by the files alone: a location has a definition if a file of its
name holds one somewhere below the folder of its kind, and the file whose path sorts last gives it.
Files that hold no definition and files of other names do not matter. The definitions are listed by
their locations, each location once.
-/

namespace CrossModel

universe u v

/-! ## Files with definitions -/

/-- The platform or library that a file holds, placed at a location. -/
def FileNode.definition? (location : String) : FileNode → Option Document
  | directory => none
  | file content =>
    (String.fromUTF8? content).bind fun text =>
      (Document.parse text location).toOption.filter (·.kind ≠ .execution)

/-- A file of a bundle with a platform or a library in it. The document is placed at the location of
the file's name. -/
structure BundledFile (files : FileSystem) (root : Path) (kind : DefinitionKind) (name : String)
    (path : Path) (document : Document) : Prop where
  below : ∃ folders, (∀ folder ∈ folders, PlainName folder) ∧
    path = (root.join kind.bundleFolder).below (folders ++ [name])
  plain : PlainName name
  extension : ∃ stem, stem ≠ "" ∧ name = stem ++ "." ++ kind.extension
  holds : ∃ place node, files.find path = .ok (place, node) ∧
    node.definition? (kind.bundleSpace ++ name) = some document

/-- Of the files of one name with definitions, the one whose path sorts last. -/
structure LastBundledFile (files : FileSystem) (root : Path) (kind : DefinitionKind)
    (name : String) (path : Path) (document : Document) : Prop
    extends BundledFile files root kind name path document where
  last : ∀ other content, BundledFile files root kind name other content →
    other.sortsBefore path = true

theorem FileNode.definition?_eq_some_iff {location : String} {node : FileNode}
    {document : Document} :
    node.definition? location = some document ↔ ∃ content text, node = .file content ∧
      String.fromUTF8? content = some text ∧ Document.parse text location = .ok document ∧
      document.kind ≠ .execution := by
  cases node with
  | directory => simp [definition?]
  | file content =>
    cases htext : String.fromUTF8? content with
    | none => simp [definition?, htext]
    | some text =>
      cases hparse : Document.parse text location with
      | error error => simp [definition?, htext, hparse, Except.toOption]
      | ok found => simp [definition?, htext, hparse, Except.toOption, Option.filter_eq_some_iff]

theorem FileSystem.readText_eq_ok_iff {files : FileSystem} {path : Path} {text : String} :
    files.readText path = .ok text ↔ ∃ place content,
      files.find path = .ok (place, .file content) ∧ String.fromUTF8? content = some text := by
  unfold readText
  cases files.find path with
  | error error => simp
  | ok found =>
    obtain ⟨place, node⟩ := found
    cases node with
    | directory => simp
    | file content =>
      simp only
      cases htext : String.fromUTF8? content <;> simp [htext]

namespace DefinitionKind

theorem bundleSpace_append_inj {kind other : DefinitionKind} {name otherName : String} :
    kind.bundleSpace ++ name = other.bundleSpace ++ otherName ↔
      kind = other ∧ name = otherName := by
  constructor
  · intro h
    have hchars := congrArg String.toList h
    rw [String.toList_append, String.toList_append] at hchars
    have hlength : kind.bundleSpace.toList.length = other.bundleSpace.toList.length := by
      cases kind <;> cases other <;> decide
    obtain ⟨hspace, hname⟩ := List.append_inj hchars hlength
    refine ⟨?_, String.toList_inj.1 hname⟩
    revert hspace
    cases kind <;> cases other <;> decide
  · rintro ⟨rfl, rfl⟩
    rfl

/-- The last name on the way to the folder of a bundle. -/
def folderName : DefinitionKind → String
  | platform => "platforms"
  | library => "libraries"

theorem plainName_folderName (kind : DefinitionKind) : PlainName kind.folderName := by
  cases kind <;> exact ⟨by decide, by decide, by decide, by decide⟩

theorem toList_text_bundleFolder (root : Path) (kind : DefinitionKind) :
    ∃ before, (root.join kind.bundleFolder).text.toList =
      before ++ '/' :: kind.folderName.toList := by
  have hrelative : kind.bundleFolder.toList.head? ≠ some '/' := by
    cases kind <;> decide
  have hfolder : kind.bundleFolder.toList = "plugins".toList ++ '/' :: kind.folderName.toList := by
    cases kind <;> decide
  unfold Path.join
  rw [if_neg hrelative]
  split
  · exact ⟨root.text.toList ++ "plugins".toList, by simp [hfolder]⟩
  · exact ⟨root.text.toList ++ '/' :: "plugins".toList, by simp [hfolder]⟩

theorem endsOpen_bundleFolder (root : Path) (kind : DefinitionKind) :
    (root.join kind.bundleFolder).EndsOpen := by
  obtain ⟨before, htext⟩ := toList_text_bundleFolder root kind
  exact Path.endsOpen_of_text htext kind.plainName_folderName

/-- A file in the place of the folder has not the right extension. -/
theorem extension?_bundleFolder (root : Path) (kind : DefinitionKind) :
    (root.join kind.bundleFolder).extension? = none := by
  obtain ⟨before, htext⟩ := toList_text_bundleFolder root kind
  have hname := Path.fileName?_of_text htext kind.plainName_folderName
  unfold Path.extension?
  rw [hname]
  cases kind <;> decide

end DefinitionKind

section LastFile

variable {files : FileSystem} {root : Path} {kind : DefinitionKind} {name : String}
  {path other : Path} {document content : Document}

theorem BundledFile.eq_below (h : BundledFile files root kind name path document) :
    ∃ names, (∀ each ∈ names, PlainName each) ∧ names.getLast? = some name ∧
      path = (root.join kind.bundleFolder).below names := by
  obtain ⟨folders, hfolders, rfl⟩ := h.below
  refine ⟨folders ++ [name], ?_, List.getLast?_concat, rfl⟩
  exact List.forall_mem_append.2 ⟨hfolders, List.forall_mem_singleton.2 h.plain⟩

/-- Only one file of a name sorts last. -/
theorem LastBundledFile.document_unique
    (hfirst : LastBundledFile files root kind name path document)
    (hsecond : LastBundledFile files root kind name other content) : document = content := by
  have hsame := Path.components_eq_of_sortsBefore
    (hsecond.last _ _ hfirst.toBundledFile) (hfirst.last _ _ hsecond.toBundledFile)
  obtain ⟨place, node, hfind, hholds⟩ := hfirst.holds
  obtain ⟨otherPlace, otherNode, hotherFind, hotherHolds⟩ := hsecond.holds
  obtain ⟨names, hnames, -, rfl⟩ := hfirst.eq_below
  obtain ⟨others, hothers, -, rfl⟩ := hsecond.eq_below
  rw [Path.below_inj (kind.endsOpen_bundleFolder root) hnames hothers hsame, hotherFind] at hfind
  cases hfind
  exact Option.some.inj (hholds.symm.trans hotherHolds)

end LastFile

/-! ## Files that do not matter -/

/-- Two file systems in which the folder of a bundle is at the same place and files of a name hold
the same definitions, wherever they stand. The current directory matters if the root of the bundle
is relative to it. -/
structure SameDefinitions (files changed : FileSystem) (root : Path) (kind : DefinitionKind)
    (name : String) : Prop where
  current : root.isAbsolute = true ∨ changed.current = files.current
  folder : ∀ top, files.find (root.join kind.bundleFolder) = .ok (top, .directory) ↔
    changed.find (root.join kind.bundleFolder) = .ok (top, .directory)
  definitions : ∀ folders,
    (files.node? (folders ++ [name])).bind (·.definition? (kind.bundleSpace ++ name)) =
      (changed.node? (folders ++ [name])).bind (·.definition? (kind.bundleSpace ++ name))

namespace SameDefinitions

variable {files changed : FileSystem} {root : Path} {kind : DefinitionKind} {name : String}
  {path : Path} {document : Document}

/-- It is enough that no directory comes or goes, and that the current one stays. -/
theorem of_directories (hcurrent : changed.current = files.current)
    (hdirectories : ∀ place, files.node? place = some .directory ↔
      changed.node? place = some .directory)
    (hdefinitions : ∀ folders,
      (files.node? (folders ++ [name])).bind (·.definition? (kind.bundleSpace ++ name)) =
        (changed.node? (folders ++ [name])).bind (·.definition? (kind.bundleSpace ++ name))) :
    SameDefinitions files changed root kind name where
  current := .inr hcurrent
  folder _ :=
    ⟨FileSystem.find_directory_mono (fun place => (hdirectories place).1)
      (FileSystem.fromRoot_congr hcurrent _),
    FileSystem.find_directory_mono (fun place => (hdirectories place).2)
      (FileSystem.fromRoot_congr hcurrent.symm _)⟩
  definitions := hdefinitions

theorem fromRoot_eq (h : SameDefinitions files changed root kind name) :
    changed.fromRoot (root.join kind.bundleFolder) =
      files.fromRoot (root.join kind.bundleFolder) := by
  rcases h.current with habsolute | hcurrent
  · have hfolder := Path.isAbsolute_join habsolute kind.bundleFolder
    rw [FileSystem.fromRoot_of_isAbsolute hfolder, FileSystem.fromRoot_of_isAbsolute hfolder]
  · exact FileSystem.fromRoot_congr hcurrent _

theorem symm (h : SameDefinitions files changed root kind name) :
    SameDefinitions changed files root kind name where
  current := h.current.imp_right Eq.symm
  folder top := (h.folder top).symm
  definitions folders := (h.definitions folders).symm

theorem bundledFile (h : SameDefinitions files changed root kind name)
    (hpath : BundledFile files root kind name path document) :
    BundledFile changed root kind name path document := by
  refine { hpath with holds := ?_ }
  have hopen := kind.endsOpen_bundleFolder root
  obtain ⟨place, node, hfind, hholds⟩ := hpath.holds
  obtain ⟨names, hnames, hlast, rfl⟩ := hpath.eq_below
  obtain ⟨folders, rfl⟩ := List.getLast?_eq_some_iff.1 hlast
  obtain ⟨top, hfolder, rfl, hnode, hshort⟩ :=
    (FileSystem.find_below_iff hopen (by simp) hnames).1 hfind
  have hwhole : changed.fromRoot ((root.join kind.bundleFolder).below (folders ++ [name])) =
      files.fromRoot ((root.join kind.bundleFolder).below (folders ++ [name])) := by
    rw [FileSystem.fromRoot_below _ hopen hnames, FileSystem.fromRoot_below _ hopen hnames,
      h.fromRoot_eq]
  have hsame := h.definitions (top ++ folders)
  rw [List.append_assoc, hnode, Option.bind_some, hholds] at hsame
  obtain ⟨found, hfound, hdefinition⟩ := Option.bind_eq_some_iff.1 hsame.symm
  refine ⟨top ++ (folders ++ [name]), found, ?_, hdefinition⟩
  exact (FileSystem.find_below_iff hopen (by simp) hnames).2
    ⟨top, (h.folder top).1 hfolder, rfl, hfound, by rwa [hwhole]⟩

theorem lastBundledFile (h : SameDefinitions files changed root kind name)
    (hpath : LastBundledFile files root kind name path document) :
    LastBundledFile changed root kind name path document where
  toBundledFile := h.bundledFile hpath.toBundledFile
  last other content hother := hpath.last other content (h.symm.bundledFile hother)

end SameDefinitions

namespace BundleScan

variable {files : FileSystem} {root : Path} {kind : DefinitionKind} {name : String} {path : Path}
  {document : Document}

theorem mem_folderPaths_iff :
    path ∈ folderPaths files root kind ↔ path.extension? = some kind.extension ∧
      ∃ top names content, files.find (root.join kind.bundleFolder) = .ok (top, .directory) ∧
        names ≠ [] ∧ files.node? (top ++ names) = some (.file content) ∧
        path = (root.join kind.bundleFolder).below names := by
  unfold folderPaths FileSystem.collect
  cases hfind : files.find (root.join kind.bundleFolder) with
  | error error => simp [FileSystem.filesBelow, hfind, Except.map, Except.toOption]
  | ok found =>
    obtain ⟨top, node⟩ := found
    cases node with
    | file content =>
      have hnone := kind.extension?_bundleFolder root
      simp [FileSystem.filesBelow, hfind, Except.map, Except.toOption, hnone]
    | directory =>
      obtain ⟨paths, hpaths, hmem⟩ := FileSystem.mem_filesBelow hfind
      simp [hpaths, Except.map, Except.toOption, hmem, and_comm]

/-- The files with definitions are those whose entries define the location of their name. -/
theorem bundledFile_iff :
    BundledFile files root kind name path document ↔
      path ∈ folderPaths files root kind ∧
        (ofFile? files kind path).filter (·.defines (kind.bundleSpace ++ name)) =
          some ⟨kind.bundleSpace ++ name, document⟩ := by
  have hopen := kind.endsOpen_bundleFolder root
  have hdot : '.' ∉ kind.extension.toList := by
    cases kind <;> decide
  rw [mem_folderPaths_iff, Option.filter_eq_some_iff, ofFile?_eq_some_iff]
  constructor
  · rintro ⟨⟨folders, hfolders, rfl⟩, hplain, hextension, place, node, hfind, hholds⟩
    obtain ⟨content, text, rfl, htext, hparse, hkind⟩ := FileNode.definition?_eq_some_iff.1 hholds
    have hnames : ∀ each ∈ folders ++ [name], PlainName each :=
      List.forall_mem_append.2 ⟨hfolders, List.forall_mem_singleton.2 hplain⟩
    have hfile := Path.fileName?_below hopen hnames
    obtain ⟨top, hfolder, rfl, hnode, -⟩ :=
      (FileSystem.find_below_iff hopen (by simp) hnames).1 hfind
    have hread := FileSystem.readText_eq_ok_iff.2 ⟨_, content, hfind, htext⟩
    refine ⟨⟨(Path.extension?_eq_some_iff hfile hdot).2 hextension, ?_⟩, ⟨name, text, ?_⟩, ?_⟩
    · exact ⟨top, folders ++ [name], content, hfolder, by simp, hnode, rfl⟩
    · exact ⟨hfile, rfl, hread, hparse⟩
    · simp [BundleEntry.defines, hkind]
  · rintro ⟨⟨hextension, top, names, content, hfolder, hne, hnode, rfl⟩,
      ⟨own, text, hfile, hlocation, hread, hparse⟩, hdefines⟩
    have hnames : ∀ name ∈ names, PlainName name := fun name hname =>
      (FileTree.fileName_of_node? hnode name hname).toPlainName
    obtain ⟨-, rfl⟩ := DefinitionKind.bundleSpace_append_inj.1 hlocation
    obtain ⟨folders, last, rfl⟩ := (List.eq_nil_or_concat names).resolve_left hne
    rw [List.concat_eq_append] at hnames hfile hextension hread ⊢
    have hlast := Path.fileName?_below hopen hnames
    obtain rfl : last = name := Option.some.inj (hlast.symm.trans hfile)
    obtain ⟨place, found, hfind, htext⟩ := FileSystem.readText_eq_ok_iff.1 hread
    obtain ⟨-, hkind⟩ := of_decide_eq_true hdefines
    obtain ⟨hfolders, hplain⟩ := List.forall_mem_append.1 hnames
    exact {
      below := ⟨folders, hfolders, rfl⟩
      plain := hplain last List.mem_cons_self
      extension := (Path.extension?_eq_some_iff hlast hdot).1 hextension
      holds := ⟨place, .file found, hfind,
        FileNode.definition?_eq_some_iff.2 ⟨found, text, rfl, htext, hparse, hkind⟩⟩ }

/-! ## Entries that count -/

theorem pairwise_folderPaths (files : FileSystem) (root : Path) (kind : DefinitionKind) :
    (folderPaths files root kind).Pairwise fun path later => path.sortsBefore later = true := by
  unfold folderPaths FileSystem.collect
  cases files.filesBelow (root.join kind.bundleFolder) with
  | error error => exact List.Pairwise.nil
  | ok found =>
    simp only [Except.map, Except.toOption, Option.getD_some]
    apply List.pairwise_mergeSort
    · intro first second third
      exact Path.sortsBefore_trans
    · exact Path.sortsBefore_total

/-- The location of a file's name is defined by the entries of its own folder. -/
theorem filter_defines_entries (files : FileSystem) (root : Path) (kind : DefinitionKind)
    (name : String) :
    (ofRoot files root).entries.filter (·.defines (kind.bundleSpace ++ name)) =
      (folderPaths files root kind).filterMap fun path =>
        (ofFile? files kind path).filter (·.defines (kind.bundleSpace ++ name)) := by
  have hother : ∀ other, other ≠ kind →
      (ofFolder files root other).entries.filter (·.defines (kind.bundleSpace ++ name)) = [] := by
    intro other hne
    rw [entries_ofFolder, List.filter_eq_nil_iff]
    intro entry hentry hdefines
    obtain ⟨path, -, hpath⟩ := List.mem_filterMap.1 hentry
    obtain ⟨own, -, -, hlocation, -⟩ := ofFile?_eq_some_iff.1 hpath
    rw [(of_decide_eq_true hdefines).1] at hlocation
    exact hne (DefinitionKind.bundleSpace_append_inj.1 hlocation).1.symm
  have happend : (ofRoot files root).entries =
      (ofFolder files root .platform).entries ++ (ofFolder files root .library).entries := rfl
  rw [happend, List.filter_append, ← List.filter_filterMap, ← entries_ofFolder]
  cases kind with
  | platform => rw [hother .library nofun, List.append_nil]
  | library => rw [hother .platform nofun, List.nil_append]

/-- The last value along a sorted list is that of the greatest item with a value. -/
theorem exists_greatest_of_getLast? {α : Type u} {β : Type v} {le : α → α → Prop}
    {value? : α → Option β} {items : List α} {value : β} (hrefl : ∀ item, le item item)
    (hsorted : items.Pairwise le) (h : (items.filterMap value?).getLast? = some value) :
    ∃ item ∈ items, value? item = some value ∧
      ∀ other ∈ items, (value? other).isSome → le other item := by
  induction items using List.reverseRecOn with
  | nil => cases h
  | append_singleton before last ih =>
    obtain ⟨hbefore, -, hlast⟩ := List.pairwise_append.1 hsorted
    rw [List.filterMap_append] at h
    cases hvalue : value? last with
    | none =>
      simp only [List.filterMap_cons_none hvalue, List.filterMap_nil, List.append_nil] at h
      obtain ⟨item, hitem, hfound, hgreatest⟩ := ih hbefore h
      refine ⟨item, List.mem_append_left _ hitem, hfound, ?_⟩
      intro other hother hsome
      rcases List.mem_append.1 hother with hother | hother
      · exact hgreatest other hother hsome
      · rw [List.mem_singleton.1 hother, hvalue] at hsome
        cases hsome
    | some found =>
      simp only [List.filterMap_cons_some hvalue, List.filterMap_nil, List.getLast?_concat] at h
      refine ⟨last, by simp, hvalue.trans h, ?_⟩
      intro other hother _
      rcases List.mem_append.1 hother with hother | hother
      · exact hlast other hother last List.mem_cons_self
      · rw [List.mem_singleton.1 hother]
        exact hrefl last

theorem exists_lastBundledFile {entry : BundleEntry}
    (h : ((ofRoot files root).entries.filter
      (·.defines (kind.bundleSpace ++ name))).getLast? = some entry) :
    ∃ path, LastBundledFile files root kind name path entry.document := by
  have hrefl : ∀ path : Path, path.sortsBefore path = true := by
    intro path
    simpa using Path.sortsBefore_total path path
  rw [filter_defines_entries] at h
  obtain ⟨path, hpath, hentry, hlast⟩ :=
    exists_greatest_of_getLast? hrefl (pairwise_folderPaths files root kind) h
  have hlocation : entry.location = kind.bundleSpace ++ name :=
    (of_decide_eq_true (Option.filter_eq_some_iff.1 hentry).2).1
  refine ⟨path, bundledFile_iff.2 ⟨hpath, ?_⟩, ?_⟩
  · rw [hentry, ← hlocation]
  · intro other content hother
    obtain ⟨hmem, hdefines⟩ := bundledFile_iff.1 hother
    exact hlast other hmem (by rw [hdefines]; rfl)

theorem exists_getLast?_of_bundledFile
    (h : BundledFile files root kind name path document) :
    ∃ entry, ((ofRoot files root).entries.filter
      (·.defines (kind.bundleSpace ++ name))).getLast? = some entry := by
  obtain ⟨hpath, hentry⟩ := bundledFile_iff.1 h
  rw [filter_defines_entries]
  refine ⟨_, List.getLast?_eq_some_getLast ?_⟩
  exact List.ne_nil_of_mem (List.mem_filterMap.2 ⟨path, hpath, hentry⟩)

end BundleScan

/-! ## Listing -/

namespace Bundle

theorem mem_sorted_iff (bundle : Bundle) (definition : Definition) :
    definition ∈ bundle.sorted ↔ ∃ location, bundle.find? location = some definition := by
  unfold sorted find?
  simp [OrderedMap.mem_entries_iff]

/-- Definitions that know their locations are listed in the order of these. -/
theorem pairwise_sorted {bundle : Bundle} (hlocated : ∀ location definition,
    bundle.find? location = some definition → definition.location = location) :
    (bundle.sorted.map Definition.location).Pairwise (· < ·) := by
  have hsorted : (bundle.definitions.entries.mergeSort fun a b => decide (a.1 ≤ b.1)).Pairwise
      fun entry later => decide (entry.1 ≤ later.1) = true := by
    apply List.pairwise_mergeSort
    · intro first second third hfirst hsecond
      exact decide_eq_true (String.le_trans (of_decide_eq_true hfirst) (of_decide_eq_true hsecond))
    · intro first second
      simpa using String.le_total first.1 second.1
  have hperm := List.mergeSort_perm bundle.definitions.entries fun a b => decide (a.1 ≤ b.1)
  have hdistinct : (bundle.definitions.entries.mergeSort fun a b => decide (a.1 ≤ b.1)).Pairwise
      fun entry later => entry.1 ≠ later.1 := by
    rw [← List.pairwise_map]
    exact (hperm.map Prod.fst).nodup_iff.2 bundle.definitions.nodup
  have hlocations : ∀ entry ∈ bundle.definitions.entries.mergeSort fun a b => decide (a.1 ≤ b.1),
      entry.2.location = entry.1 := by
    intro entry hentry
    exact hlocated _ _ ((OrderedMap.mem_entries_iff _ _ _).1 (hperm.mem_iff.1 hentry))
  unfold sorted
  rw [List.map_map, List.pairwise_map]
  apply (hsorted.and hdistinct).imp_of_mem
  intro entry later hentry hlater hboth
  obtain ⟨hle, hne⟩ := hboth
  rw [Function.comp_apply, Function.comp_apply, hlocations entry hentry, hlocations later hlater]
  apply Std.not_le.1
  intro hback
  exact hne (String.le_antisymm (of_decide_eq_true hle) hback)

end Bundle

/-! ## What the bundle holds -/

/-- The bundle of a session holds exactly what the files below its root define. -/
structure Session.HoldsBundle (session : Session) (files : FileSystem) (root : Path) : Prop where
  defined : ∀ location, (session.bundled? location).isSome ↔
    ∃ kind name path document, location = kind.bundleSpace ++ name ∧
      BundledFile files root kind name path document
  last : ∀ kind name document,
    (session.bundled? (kind.bundleSpace ++ name)).map Definition.document = some document ↔
      ∃ path, LastBundledFile files root kind name path document
  located : ∀ location definition, session.bundled? location = some definition →
    definition.location = location
  listed : ∀ definition, definition ∈ session.bundledDefinitions ↔
    session.bundled? definition.location = some definition
  ordered : (session.bundledDefinitions.map Definition.location).Pairwise (· < ·)

namespace Session

variable {session : Session} {files : FileSystem} {root : Path}

theorem bundledDocument?_eq_some_iff (hbundle : session.bundle = none)
    (hroot : session.settings.bundleRoot = some root)
    (kind : DefinitionKind) (name : String) (document : Document) :
    session.bundledDocument? files (kind.bundleSpace ++ name) = some document ↔
      ∃ path, LastBundledFile files root kind name path document := by
  rw [bundledDocument?_of_none hbundle, hroot, Option.bind_some, Option.map_eq_some_iff]
  constructor
  · rintro ⟨entry, hlast, rfl⟩
    exact BundleScan.exists_lastBundledFile hlast
  · rintro ⟨path, hpath⟩
    obtain ⟨entry, hlast⟩ := BundleScan.exists_getLast?_of_bundledFile hpath.toBundledFile
    obtain ⟨other, hother⟩ := BundleScan.exists_lastBundledFile hlast
    exact ⟨entry, hlast, hother.document_unique hpath⟩

theorem isSome_bundledDocument?_iff (hbundle : session.bundle = none)
    (hroot : session.settings.bundleRoot = some root)
    (location : String) :
    (session.bundledDocument? files location).isSome ↔
      ∃ kind name path document, location = kind.bundleSpace ++ name ∧
        BundledFile files root kind name path document := by
  rw [bundledDocument?_of_none hbundle, hroot, Option.bind_some, Option.isSome_map]
  constructor
  · intro h
    obtain ⟨entry, hlast⟩ := Option.isSome_iff_exists.1 h
    obtain ⟨hmem, hdefines⟩ := List.mem_filter.1 (List.mem_of_getLast? hlast)
    obtain ⟨kind, path, -, hentry⟩ := BundleScan.mem_entries_ofRoot.1 hmem
    obtain ⟨name, -, -, hlocation, -⟩ := BundleScan.ofFile?_eq_some_iff.1 hentry
    rw [(of_decide_eq_true hdefines).1] at hlocation
    subst hlocation
    obtain ⟨path, hpath⟩ := BundleScan.exists_lastBundledFile hlast
    exact ⟨kind, name, path, entry.document, rfl, hpath.toBundledFile⟩
  · rintro ⟨kind, name, path, document, rfl, hpath⟩
    exact Option.isSome_iff_exists.2 (BundleScan.exists_getLast?_of_bundledFile hpath)

theorem holdsBundle_ensureBundle (hbundle : session.bundle = none)
    (hroot : session.settings.bundleRoot = some root) :
    (session.ensureBundle files).session.HoldsBundle files root := by
  have hlocated : ∀ location definition,
      (session.ensureBundle files).session.bundled? location = some definition →
        definition.location = location := by
    intro location definition h
    have hdocument : session.bundledDocument? files location = some definition.document :=
      congrArg (Option.map Definition.document) h
    obtain ⟨-, text, hparse⟩ := parse_of_bundledDocument? hbundle hdocument
    exact Document.location_of_parse hparse
  obtain ⟨bundle, nextId, hsession⟩ := ensureBundle_session session files
  have hfound : (session.ensureBundle files).session.bundled? = bundle.find? := by
    rw [hsession]
    rfl
  have hlist : (session.ensureBundle files).session.bundledDefinitions = bundle.sorted := by
    rw [hsession]
    rfl
  refine {
    defined := ?_
    last := bundledDocument?_eq_some_iff hbundle hroot
    located := hlocated
    listed := ?_
    ordered := ?_ }
  · intro location
    rw [← isSome_bundledDocument?_iff hbundle hroot, bundledDocument?, Option.isSome_map]
  · intro definition
    rw [hlist, Bundle.mem_sorted_iff, hfound]
    constructor
    · rintro ⟨location, hlocation⟩
      rwa [hlocated location definition (by rwa [hfound])]
    · intro h
      exact ⟨definition.location, h⟩
  · rw [hlist]
    apply Bundle.pairwise_sorted
    rwa [← hfound]

/-- After its bundle has been read, a session without one before holds exactly the definitions in
the files of the bundle. Whatever else changes in the file system, the definition at a location
stays as long as the files of its name hold the same definitions. -/
theorem bundle_holds_last_files (hbundle : session.bundle = none)
    (hroot : session.settings.bundleRoot = some root) :
    (session.ensureBundle files).session.HoldsBundle files root ∧
      ∀ changed kind name, SameDefinitions files changed root kind name →
        session.bundledDocument? changed (kind.bundleSpace ++ name) =
          session.bundledDocument? files (kind.bundleSpace ++ name) := by
  refine ⟨holdsBundle_ensureBundle hbundle hroot, ?_⟩
  intro changed kind name hsame
  apply Option.ext
  intro document
  rw [bundledDocument?_eq_some_iff hbundle hroot,
    bundledDocument?_eq_some_iff hbundle hroot]
  constructor
  · rintro ⟨path, hpath⟩
    exact ⟨path, hsame.symm.lastBundledFile hpath⟩
  · rintro ⟨path, hpath⟩
    exact ⟨path, hsame.lastBundledFile hpath⟩

/-- A bundle at the root of the file system with two platforms under one file name. -/
def contestedFiles : FileSystem :=
  { FileSystem.empty with
    nodes := {
      entries := [
        (["plugins"], .directory),
        (["plugins", "platforms"], .directory),
        (["plugins", "platforms", "Lamp.platform"], .file "platform First".toUTF8),
        (["plugins", "platforms", "b"], .directory),
        (["plugins", "platforms", "b", "Lamp.platform"], .file "platform Second".toUTF8),
        (["plugins", "platforms", "c"], .directory)]
      nodup := by decide }
    ne_root := by decide +kernel
    names := by decide +kernel
    parents := by decide +kernel }

def contestedPaths : List Path :=
  [⟨"/plugins/platforms/Lamp.platform"⟩, ⟨"/plugins/platforms/b/Lamp.platform"⟩]

theorem folderPaths_contestedFiles :
    BundleScan.folderPaths contestedFiles ⟨"/"⟩ .platform = contestedPaths := by
  have hfolder : Path.join ⟨"/"⟩ DefinitionKind.platform.bundleFolder = ⟨"/plugins/platforms"⟩ := by
    decide +kernel
  have hbelow : contestedFiles.filesBelow ⟨"/plugins/platforms"⟩ = .ok contestedPaths := by
    decide +kernel
  have hextension : contestedPaths.filter
      (·.extension? = some DefinitionKind.platform.extension) = contestedPaths := by
    decide +kernel
  have hsorted : contestedPaths.Pairwise fun path later => path.sortsBefore later = true := by
    decide +kernel
  unfold BundleScan.folderPaths FileSystem.collect
  rw [hfolder, hbelow]
  simp only [Except.map, Except.toOption, Option.getD_some, hextension]
  exact List.mergeSort_of_pairwise hsorted

/-- The same bundle with an execution model in a file of this name that sorts last. -/
def recontestedFiles : FileSystem :=
  { contestedFiles with
    toFileTree := contestedFiles.put ["plugins", "platforms", "c"] "Lamp.platform"
      (.file "state Idle".toUTF8) }

theorem bundle_holds_last_files_contestedFiles :
    let session := start { Settings.ofDirectory ⟨"/"⟩ with bundleRoot := some ⟨"/"⟩ }
    let location := DefinitionKind.platform.bundleSpace ++ "Lamp.platform"
    let lamp := Document.platform { name := ⟨"Second", ⟨⟨0, 9⟩, ⟨0, 15⟩⟩⟩, location }
    (session.ensureBundle contestedFiles).session.HoldsBundle contestedFiles ⟨"/"⟩ ∧
      session.bundledDocument? contestedFiles location = some lamp ∧
      session.bundledDocument? recontestedFiles location = some lamp := by
  intro session location lamp
  have hadmits : contestedFiles.Admits ["plugins", "platforms", "c"] "Lamp.platform"
      (.file "state Idle".toUTF8) := by
    decide +kernel
  have hsame : SameDefinitions contestedFiles recontestedFiles ⟨"/"⟩ .platform
      "Lamp.platform" := by
    apply SameDefinitions.of_directories
    · rfl
    · intro place
      rw [recontestedFiles, FileTree.node?_put hadmits]
      split
      · next heq =>
        rw [← heq]
        decide +kernel
      · rfl
    · intro folders
      rw [recontestedFiles, FileTree.node?_put hadmits]
      split
      · next heq =>
        rw [← heq]
        decide +kernel
      · rfl
  have hbundle : session.bundle = none := rfl
  have hroot : session.settings.bundleRoot = some ⟨"/"⟩ := rfl
  obtain ⟨hholds, hkept⟩ := bundle_holds_last_files hbundle hroot
  have hlamp : session.bundledDocument? contestedFiles location = some lamp := by
    rw [bundledDocument?_of_none hbundle, hroot, Option.bind_some,
      BundleScan.filter_defines_entries, folderPaths_contestedFiles]
    decide +kernel
  exact ⟨hholds, hlamp, (hkept recontestedFiles _ _ hsame).trans hlamp⟩

end Session

end CrossModel
