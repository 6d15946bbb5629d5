import CrossModel.Proofs.Files.PathNames
import Mathlib.Data.List.Induction

/-!
# Files below a directory

The path of a directory with names behind it leads to what stands at these names below the
directory, unless it is too long. So the files below a directory can be spoken of by their names
alone.
-/

namespace CrossModel

/-! ## Places of a tree -/

namespace FileTree

variable {tree : FileTree} {place more : List String} {node : FileNode}

/-- What stands at some place stands below directories only. -/
theorem directory_of_append (hmore : more ≠ []) (h : tree.node? (place ++ more) = some node) :
    tree.node? place = some .directory := by
  induction more using List.reverseRecOn generalizing node with
  | nil => exact absurd rfl hmore
  | append_singleton before last ih =>
    have hkeys : place ++ (before ++ [last]) ∈ tree.nodes.keys := mem_keys_of_node? (by simp) h
    have hparent := tree.parents _ hkeys
    rw [← List.append_assoc, List.dropLast_concat] at hparent
    cases before with
    | nil => rwa [List.append_nil] at hparent
    | cons first others => exact ih (List.cons_ne_nil first others) hparent

theorem node?_dropLast (h : tree.node? place = some node) :
    tree.node? place.dropLast = some .directory := by
  by_cases hroot : place = []
  · subst hroot
    rfl
  · exact tree.parents place (mem_keys_of_node? hroot h)

theorem fileName_of_node? (h : tree.node? (place ++ more) = some node) :
    ∀ name ∈ more, FileName name := by
  intro name hname
  have hplace : name ∈ place ++ more := List.mem_append_right place hname
  exact tree.names _ (mem_keys_of_node? (List.ne_nil_of_mem hplace) h) name hplace

end FileTree

namespace FileSystem

/-! ## Walks -/

/-- A walk ends at what stands at the names that it has collected. -/
theorem node?_of_walk {files : FileSystem} {place segments : List String} {node : FileNode}
    {found : List String × FileNode} (hnode : files.node? place = some node)
    (h : files.walk place node segments = .ok found) : files.node? found.1 = some found.2 := by
  induction segments generalizing place node with
  | nil =>
    cases h
    exact hnode
  | cons segment rest ih =>
    rw [walk] at h
    split at h
    · cases h
    · split at h
      · exact ih hnode h
      · split at h
        · exact ih (FileTree.node?_dropLast hnode) h
        · split at h
          · cases h
          · split at h
            · next next hnext => exact ih hnext h
            · cases h

theorem node?_of_find {files : FileSystem} {path : Path} {place : List String} {node : FileNode}
    (h : files.find path = .ok (place, node)) : files.node? place = some node := by
  unfold find at h
  split at h
  · cases h
  · exact node?_of_walk rfl h

/-- Following names from a directory leads to what stands at them. -/
theorem walk_below {files : FileSystem} {place more : List String} {node : FileNode}
    (hmore : more ≠ []) (h : files.node? (place ++ more) = some node) :
    files.walk place .directory more = .ok (place ++ more, node) := by
  induction more generalizing place with
  | nil => exact absurd rfl hmore
  | cons name rest ih =>
    have hname := FileTree.fileName_of_node? h name List.mem_cons_self
    have hstays : FileTree.staysPut name = false := by
      simp [FileTree.staysPut, hname.ne_empty, hname.ne_current]
    have happend : place ++ name :: rest = (place ++ [name]) ++ rest := by simp
    rw [walk]
    simp only [FileNode.isFile, hstays, hname.ne_parent, Nat.not_lt.2 hname.short, if_false,
      Bool.false_eq_true]
    cases rest with
    | nil =>
      rw [h]
      rfl
    | cons next others =>
      rw [happend] at h ⊢
      rw [FileTree.directory_of_append (List.cons_ne_nil next others) h]
      exact ih (List.cons_ne_nil next others) h

theorem walk_append (files : FileSystem) (names : List String) (node : FileNode)
    (first second : List String) :
    files.walk names node (first ++ second) =
      (files.walk names node first).bind fun found => files.walk found.1 found.2 second := by
  induction first generalizing names node with
  | nil => rfl
  | cons segment rest ih =>
    rw [List.cons_append, walk, walk]
    split
    · rfl
    · split
      · exact ih names node
      · split
        · exact ih names.dropLast .directory
        · split
          · rfl
          · split
            · exact ih _ _
            · rfl

/-- A walk along plain names ends at these names. -/
theorem place_of_walk {files : FileSystem} {place names : List String} {node : FileNode}
    {found : List String × FileNode} (hnames : ∀ name ∈ names, PlainName name)
    (h : files.walk place node names = .ok found) : found.1 = place ++ names := by
  induction names generalizing place node with
  | nil =>
    cases h
    exact (List.append_nil place).symm
  | cons name rest ih =>
    obtain ⟨hname, hrest⟩ := List.forall_mem_cons.1 hnames
    have hstays : FileTree.staysPut name = false := by
      simp [FileTree.staysPut, hname.ne_empty, hname.ne_current]
    rw [walk, hstays, if_neg hname.ne_parent] at h
    split at h
    · cases h
    · simp only [Bool.false_eq_true, if_false] at h
      split at h
      · cases h
      · split at h
        · rw [ih hrest h]
          simp
        · cases h

/-- No way leads on from a file. -/
theorem walk_file {files : FileSystem} {place names : List String} {content : ByteArray}
    {found : List String × FileNode} (h : files.walk place (.file content) names = .ok found) :
    names = [] ∧ found = (place, .file content) := by
  cases names with
  | nil =>
    cases h
    exact ⟨rfl, rfl⟩
  | cons name rest =>
    rw [walk] at h
    cases h

/-- A directory is found again wherever the directories are still there. -/
theorem walk_directory_mono {files changed : FileSystem} {place names top : List String}
    {node : FileNode}
    (hkept : ∀ place, files.node? place = some .directory → changed.node? place = some .directory)
    (h : files.walk place node names = .ok (top, .directory)) :
    changed.walk place node names = .ok (top, .directory) := by
  induction names generalizing place node with
  | nil => exact h
  | cons name rest ih =>
    rw [walk] at h ⊢
    split_ifs at h ⊢
    · exact ih h
    · exact ih h
    · split at h
      · next next hnext =>
        cases next with
        | directory =>
          rw [hkept _ hnext]
          exact ih h
        | file content => cases (walk_file h).2
      · cases h

theorem find_directory_mono {files changed : FileSystem} {path : Path} {top : List String}
    (hkept : ∀ place, files.node? place = some .directory → changed.node? place = some .directory)
    (hpath : changed.fromRoot path = files.fromRoot path)
    (h : files.find path = .ok (top, .directory)) :
    changed.find path = .ok (top, .directory) := by
  have hrefusal : changed.refusal? path = files.refusal? path := by
    rw [refusal?, refusal?, hpath]
  unfold find at h ⊢
  rw [hrefusal, hpath]
  split at h
  · cases h
  · exact walk_directory_mono hkept h

/-! ## Paths from the root -/

theorem fromRoot_of_isAbsolute {path : Path} (h : path.isAbsolute = true) (files : FileSystem) :
    files.fromRoot path = path := by
  rw [Path.isAbsolute, decide_eq_true_eq] at h
  rw [fromRoot, Path.join, if_pos h]

theorem fromRoot_congr {files changed : FileSystem} (h : changed.current = files.current)
    (path : Path) : changed.fromRoot path = files.fromRoot path := by
  rw [fromRoot, fromRoot, h]

theorem isAbsolute_fromRoot (files : FileSystem) (path : Path) :
    (files.fromRoot path).isAbsolute = true :=
  Path.isAbsolute_join files.absolute path.text

theorem refusal?_eq_none_iff (files : FileSystem) (path : Path) :
    files.refusal? path = none ↔ path.text ≠ "" ∧
      '\x00' ∉ (files.fromRoot path).text.toList ∧
      (files.fromRoot path).text.utf8ByteSize < pathLimit := by
  unfold refusal?
  split_ifs with hempty hzero hlong
  · simp [hempty]
  · simp [List.contains_iff_mem.1 hzero]
  · simp [Nat.not_lt.2 hlong]
  · rw [List.contains_iff_mem] at hzero
    exact iff_of_true rfl ⟨hempty, hzero, Nat.lt_of_not_le hlong⟩

/-! ## Paths along names -/

section FindBelow

variable {files : FileSystem} {folder : Path} {top names place : List String} {node : FileNode}

theorem fromRoot_below (files : FileSystem) (hopen : folder.EndsOpen)
    (hnames : ∀ name ∈ names, PlainName name) :
    files.fromRoot (folder.below names) = (files.fromRoot folder).below names :=
  Path.join_text_below hopen hnames files.current

theorem segmentsOf_fromRoot_below (files : FileSystem) (hopen : folder.EndsOpen)
    (hnames : ∀ name ∈ names, PlainName name) :
    segmentsOf '/' (files.fromRoot (folder.below names)).text =
      segmentsOf '/' (files.fromRoot folder).text ++ names := by
  rw [fromRoot_below files hopen hnames]
  exact Path.segmentsOf_below (hopen.join_text files.current) hnames

/-- A path along names can be looked up if its directory can, if the names have no zero bytes and if
it is not too long. -/
theorem refusal?_below_eq_none_iff (files : FileSystem) (hopen : folder.EndsOpen)
    (hnames : ∀ name ∈ names, PlainName name) :
    files.refusal? (folder.below names) = none ↔
      files.refusal? folder = none ∧ (∀ name ∈ names, '\x00' ∉ name.toList) ∧
        (files.fromRoot (folder.below names)).text.utf8ByteSize < pathLimit := by
  have hlist := Path.toList_text_below (hopen.join_text files.current) hnames
  have htext : ((files.fromRoot folder).below names).text = (files.fromRoot folder).text ++
      String.ofList (names.flatMap fun name => '/' :: name.toList) := by
    rw [← String.toList_inj, String.toList_append, String.toList_ofList]
    exact hlist
  have hsize : (files.fromRoot folder).text.utf8ByteSize ≤
      ((files.fromRoot folder).below names).text.utf8ByteSize := by
    rw [htext, String.utf8ByteSize_append]
    exact Nat.le_add_right _ _
  have hzero : '\x00' ∉ ((files.fromRoot folder).below names).text.toList ↔
      '\x00' ∉ (files.fromRoot folder).text.toList ∧ ∀ name ∈ names, '\x00' ∉ name.toList := by
    rw [fromRoot, hlist]
    simp
  have hempty : folder.text ≠ "" := fun heq => hopen.ne_nil (String.toList_eq_nil_iff.2 heq)
  have hbelow : (folder.below names).text ≠ "" := by
    intro heq
    have hnil := Path.toList_text_below hopen hnames
    rw [heq] at hnil
    exact hopen.ne_nil (List.append_eq_nil_iff.1 hnil.symm).1
  rw [refusal?_eq_none_iff, refusal?_eq_none_iff, fromRoot_below files hopen hnames, hzero]
  constructor
  · rintro ⟨-, ⟨hfolder, hbehind⟩, hshort⟩
    exact ⟨⟨hempty, hfolder, Nat.lt_of_le_of_lt hsize hshort⟩, hbehind, hshort⟩
  · rintro ⟨⟨-, hfolder, -⟩, hbehind, hshort⟩
    exact ⟨hbelow, ⟨hfolder, hbehind⟩, hshort⟩

/-- A path along names below a directory leads to what stands at the names, unless it is too
long. -/
theorem find_below_iff (hopen : folder.EndsOpen) (hne : names ≠ [])
    (hnames : ∀ name ∈ names, PlainName name) :
    files.find (folder.below names) = .ok (place, node) ↔
      ∃ top, files.find folder = .ok (top, .directory) ∧ place = top ++ names ∧
        files.node? place = some node ∧
        (files.fromRoot (folder.below names)).text.utf8ByteSize < pathLimit := by
  have hsegments := segmentsOf_fromRoot_below files hopen hnames
  constructor
  · intro h
    have hnode := node?_of_find h
    unfold find at h
    split at h
    · cases h
    · next hrefusal =>
      obtain ⟨hfolder, -, hshort⟩ := (refusal?_below_eq_none_iff files hopen hnames).1 hrefusal
      rw [hsegments, walk_append] at h
      unfold find
      simp only [hfolder]
      cases hwalk : files.walk [] .directory (segmentsOf '/' (files.fromRoot folder).text) with
      | error error =>
        rw [hwalk] at h
        cases h
      | ok found =>
        obtain ⟨top, start⟩ := found
        rw [hwalk] at h
        have hbehind : files.walk top start names = .ok (place, node) := h
        cases start with
        | directory => exact ⟨top, rfl, place_of_walk hnames hbehind, hnode, hshort⟩
        | file content => exact absurd (walk_file hbehind).1 hne
  · rintro ⟨top, hfolder, rfl, hnode, hshort⟩
    have hzero : ∀ name ∈ names, '\x00' ∉ name.toList := fun name hname =>
      (FileTree.fileName_of_node? hnode name hname).no_zero
    unfold find at hfolder ⊢
    split at hfolder
    · cases hfolder
    · next hrefusal =>
      simp only [(refusal?_below_eq_none_iff files hopen hnames).2 ⟨hrefusal, hzero, hshort⟩]
      rw [hsegments, walk_append, hfolder]
      exact walk_below hne hnode

/-- The paths of the files below a directory are those along the names of its files. -/
theorem mem_filesBelow (hfolder : files.find folder = .ok (top, .directory)) :
    ∃ found, files.filesBelow folder = .ok found ∧ ∀ path, path ∈ found ↔
      ∃ names content, names ≠ [] ∧ files.node? (top ++ names) = some (.file content) ∧
        path = folder.below names := by
  refine ⟨_, by rw [filesBelow, hfolder], ?_⟩
  intro path
  rw [List.mem_filterMap]
  constructor
  · rintro ⟨⟨place, node⟩, hentry, hpath⟩
    have hne := files.ne_root place (List.mem_map_of_mem hentry)
    rw [OrderedMap.mem_entries_iff] at hentry
    simp only [Option.ite_none_right_eq_some, Bool.and_eq_true, List.isPrefixOf_iff_prefix,
      Option.some.injEq] at hpath
    obtain ⟨⟨hfile, names, rfl⟩, rfl⟩ := hpath
    have hnode : files.node? (top ++ names) = some node := by
      rw [FileTree.node?, FileTree.nodeAt?, if_neg (by simpa using hne)]
      exact hentry
    cases node with
    | directory => cases hfile
    | file content =>
      refine ⟨names, content, ?_, hnode, by simp [Path.below]⟩
      rintro rfl
      rw [List.append_nil, node?_of_find hfolder] at hnode
      cases hnode
  · rintro ⟨names, content, hnames, hnode, rfl⟩
    refine ⟨(top ++ names, .file content), ?_, ?_⟩
    · rw [FileTree.node?, FileTree.nodeAt?, if_neg (by simp [hnames])] at hnode
      exact (OrderedMap.mem_entries_iff _ _ _).2 hnode
    · simp [FileNode.isFile, Path.below]

end FindBelow

end FileSystem

end CrossModel
