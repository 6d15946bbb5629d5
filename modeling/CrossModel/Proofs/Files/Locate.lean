import CrossModel.Proofs.Files.Below

/-!
# Where imports are located

A path is followed from the root, segment by segment. `Leads` is this as a relation, and a path
denotes a file if it leads to one. An import is located at the canonical path of the first of its
two candidates that denotes a file. A canonical path is never longer than a path with detours to the
same place, so it can be looked up too, and the file is located at it again under all settings.
-/

namespace CrossModel

/-! ## Lengths of paths -/

/-- The number of bytes of names with a slash before each of them. -/
def slashedSize : List String → Nat
  | [] => 0
  | name :: names => name.utf8ByteSize + 1 + slashedSize names

theorem slashedSize_append (names others : List String) :
    slashedSize (names ++ others) = slashedSize names + slashedSize others := by
  induction names with
  | nil => exact (Nat.zero_add _).symm
  | cons name names ih =>
    rw [List.cons_append, slashedSize, slashedSize, ih]
    omega

theorem slashedSize_dropLast_le (names : List String) :
    slashedSize names.dropLast ≤ slashedSize names := by
  cases names using List.reverseRecOn with
  | nil => exact Nat.le_refl _
  | append_singleton names last =>
    rw [List.dropLast_concat, slashedSize_append]
    exact Nat.le_add_right _ _

theorem utf8ByteSize_intercalate {names : List String} (hne : names ≠ []) :
    ("/".intercalate names).utf8ByteSize + 1 = slashedSize names := by
  induction names with
  | nil => exact absurd rfl hne
  | cons name others ih =>
    cases others with
    | nil => simp [slashedSize]
    | cons next others =>
      have hothers := ih (List.cons_ne_nil next others)
      have hslash : "/".utf8ByteSize = 1 := rfl
      rw [String.intercalate_cons_cons, String.utf8ByteSize_append, String.utf8ByteSize_append,
        slashedSize, ← hothers, hslash]
      omega

theorem Path.utf8ByteSize_text_ofNames {names : List String} (hne : names ≠ []) :
    (Path.ofNames names).text.utf8ByteSize = slashedSize names := by
  have hslash : "/".utf8ByteSize = 1 := rfl
  rw [Path.ofNames, String.utf8ByteSize_append, hslash, Nat.add_comm,
    utf8ByteSize_intercalate hne]

theorem slashedSize_segmentsOf (text : String) :
    slashedSize (segmentsOf '/' text) = text.utf8ByteSize + 1 := by
  have hjoined : "/".intercalate (segmentsOf '/' text) = text := by
    rw [← String.toList_inj, String.toList_intercalate]
    exact (segmentsOf_eq_iff.1 rfl).2.1.symm
  rw [← utf8ByteSize_intercalate (segmentsOf_ne_nil '/' text), hjoined]

theorem not_mem_intercalate {c separator : Char} {parts : List (List Char)} (hne : c ≠ separator)
    (h : ∀ part ∈ parts, c ∉ part) : c ∉ [separator].intercalate parts := by
  induction parts with
  | nil => simp
  | cons part others ih =>
    obtain ⟨hpart, hothers⟩ := List.forall_mem_cons.1 h
    cases others with
    | nil => simpa using hpart
    | cons next others =>
      rw [List.intercalate_cons_cons, List.mem_append, List.mem_append, List.mem_singleton]
      rintro ((hmem | heq) | hmem)
      · exact hpart hmem
      · exact hne heq
      · exact ih hothers hmem

/-- The slash of an absolute path ends an empty segment. -/
theorem Path.segmentsOf_of_isAbsolute {path : Path} (h : path.isAbsolute = true) :
    ∃ rest, segmentsOf '/' path.text = "" :: rest := by
  rw [isAbsolute, decide_eq_true_eq] at h
  obtain ⟨cs, hcs⟩ := List.head?_eq_some_iff.1 h
  have hslash := List.splitOn_append_cons_self_of_not_mem (List.not_mem_nil : '/' ∉ []) cs
  rw [List.nil_append] at hslash
  refine ⟨(cs.splitOn '/').map String.ofList, ?_⟩
  rw [segmentsOf, hcs, hslash]
  rfl

/-! ## Following a path -/

namespace FileSystem

/-- Segments lead from one place to another: an empty one and a dot stay, two dots go up and any
other goes to what has this name. Each of them starts at a directory. -/
inductive Leads (files : FileSystem) : List String → List String → List String → Prop
  | arrived {place : List String} : Leads files place [] place
  | stays {place rest target : List String} {segment : String}
      (hplace : files.node? place = some .directory) (hsegment : segment = "" ∨ segment = ".")
      (hrest : Leads files place rest target) : Leads files place (segment :: rest) target
  | up {place rest target : List String} {segment : String}
      (hplace : files.node? place = some .directory) (hsegment : segment = "..")
      (hrest : Leads files place.dropLast rest target) : Leads files place (segment :: rest) target
  | down {place rest target : List String} {segment : String}
      (hplace : files.node? place = some .directory)
      (hsegment : segment ≠ "" ∧ segment ≠ "." ∧ segment ≠ "..")
      (hrest : Leads files (place ++ [segment]) rest target) :
      Leads files place (segment :: rest) target

/-- A path that can be looked up leads from the root to the file at these names. One that is not
absolute is followed behind the current directory. -/
structure Denotes (files : FileSystem) (path : Path) (place : List String)
    (content : ByteArray) : Prop where
  ne_empty : path.text ≠ ""
  no_zero : '\x00' ∉ (files.fromRoot path).text.toList
  short : (files.fromRoot path).text.utf8ByteSize < pathLimit
  leads : files.Leads [] (segmentsOf '/' (files.fromRoot path).text) place
  file : files.node? place = some (.file content)

def IsFile (files : FileSystem) (path : Path) : Prop :=
  ∃ place content, files.Denotes path place content

variable {files : FileSystem} {place segments target : List String} {node found : FileNode}

/-- Something stands at the start of a way that leads somewhere. -/
theorem Leads.exists_node (h : files.Leads place segments target)
    (htarget : files.node? target = some found) : ∃ node, files.node? place = some node := by
  cases h with
  | arrived => exact ⟨found, htarget⟩
  | stays hplace => exact ⟨.directory, hplace⟩
  | up hplace => exact ⟨.directory, hplace⟩
  | down hplace => exact ⟨.directory, hplace⟩

theorem Leads.slashedSize_le (h : files.Leads place segments target) :
    slashedSize target ≤ slashedSize place + slashedSize segments := by
  induction h with
  | arrived => exact Nat.le_add_right _ _
  | stays hplace hsegment hrest ih =>
    rw [slashedSize]
    omega
  | @up place rest target segment hplace hsegment hrest ih =>
    have hup := slashedSize_dropLast_le place
    rw [slashedSize]
    omega
  | down hplace hsegment hrest ih =>
    rw [slashedSize_append, slashedSize, slashedSize] at ih
    rw [slashedSize]
    omega

theorem leads_of_walk (hnode : files.node? place = some node)
    (h : files.walk place node segments = .ok (target, found)) :
    files.Leads place segments target := by
  induction segments generalizing place node with
  | nil =>
    cases h
    exact .arrived
  | cons segment rest ih =>
    rw [walk] at h
    cases node with
    | file content => cases h
    | directory =>
      rw [FileNode.isFile, if_neg Bool.false_ne_true] at h
      split at h
      · next hstays =>
        rw [FileTree.staysPut, Bool.or_eq_true, decide_eq_true_eq, decide_eq_true_eq] at hstays
        exact .stays hnode hstays (ih hnode h)
      · next hstays =>
        rw [FileTree.staysPut, Bool.or_eq_true, decide_eq_true_eq, decide_eq_true_eq,
          not_or] at hstays
        split at h
        · next hparent => exact .up hnode hparent (ih (FileTree.node?_dropLast hnode) h)
        · next hparent =>
          split at h
          · cases h
          · split at h
            · next next hnext =>
              exact .down hnode ⟨hstays.1, hstays.2, hparent⟩ (ih hnext h)
            · cases h

/-- By induction on the way. A name on it belongs to something that stands there, so it is short
enough. -/
theorem walk_of_leads (h : files.Leads place segments target)
    (hnode : files.node? place = some node) (htarget : files.node? target = some found) :
    files.walk place node segments = .ok (target, found) := by
  induction h generalizing node with
  | arrived =>
    rw [hnode, Option.some.injEq] at htarget
    rw [htarget]
    rfl
  | @stays place rest target segment hplace hsegment hrest ih =>
    rw [hplace, Option.some.injEq] at hnode
    subst hnode
    have hstays : FileTree.staysPut segment = true := by
      rw [FileTree.staysPut, Bool.or_eq_true, decide_eq_true_eq, decide_eq_true_eq]
      exact hsegment
    rw [walk, FileNode.isFile, if_neg Bool.false_ne_true, if_pos hstays]
    exact ih hplace htarget
  | up hplace hsegment hrest ih =>
    rw [hplace, Option.some.injEq] at hnode
    subst hnode hsegment
    exact ih (FileTree.node?_dropLast hplace) htarget
  | @down place rest target segment hplace hsegment hrest ih =>
    rw [hplace, Option.some.injEq] at hnode
    subst hnode
    obtain ⟨next, hnext⟩ := hrest.exists_node htarget
    have hname : FileName segment := FileTree.fileName_of_node? hnext segment (by simp)
    have hstays : ¬ FileTree.staysPut segment = true := by
      simp [FileTree.staysPut, hsegment.1, hsegment.2.1]
    rw [walk, FileNode.isFile, if_neg Bool.false_ne_true, if_neg hstays, if_neg hsegment.2.2,
      if_neg (Nat.not_lt.2 hname.short), hnext]
    exact ih hnext htarget

theorem find_eq_ok_file_iff {path : Path} {content : ByteArray} :
    files.find path = .ok (place, .file content) ↔ files.Denotes path place content := by
  constructor
  · intro h
    have hfile := node?_of_find h
    rw [find] at h
    split at h
    · cases h
    · next hrefusal =>
      obtain ⟨hempty, hzero, hshort⟩ := (refusal?_eq_none_iff files path).1 hrefusal
      exact ⟨hempty, hzero, hshort, leads_of_walk rfl h, hfile⟩
  · intro h
    rw [find, (refusal?_eq_none_iff files path).2 ⟨h.ne_empty, h.no_zero, h.short⟩]
    exact walk_of_leads h.leads rfl h.file

theorem canonicalFile?_eq_some_iff {path file : Path} :
    files.canonicalFile? path = some file ↔
      ∃ place content, files.Denotes path place content ∧ file = .ofNames place := by
  rw [canonicalFile?]
  constructor
  · intro h
    split at h
    · next place content hfind =>
      cases h
      exact ⟨place, content, find_eq_ok_file_iff.1 hfind, rfl⟩
    · cases h
  · rintro ⟨place, content, hdenotes, rfl⟩
    rw [find_eq_ok_file_iff.2 hdenotes]

theorem canonicalFile?_eq_none_iff {path : Path} :
    files.canonicalFile? path = none ↔ ¬ files.IsFile path := by
  rw [Option.eq_none_iff_forall_ne_some]
  constructor
  · rintro h ⟨place, content, hdenotes⟩
    exact h _ (canonicalFile?_eq_some_iff.2 ⟨place, content, hdenotes, rfl⟩)
  · intro h file hfile
    obtain ⟨place, content, hdenotes, -⟩ := canonicalFile?_eq_some_iff.1 hfile
    exact h ⟨place, content, hdenotes⟩

/-! ## Canonical paths of files -/

section Canonical

variable {path : Path} {content : ByteArray}

theorem Denotes.ne_root (h : files.Denotes path place content) : place ≠ [] := by
  rintro rfl
  cases h.file

theorem Denotes.fileName (h : files.Denotes path place content) :
    ∀ name ∈ place, FileName name :=
  files.names place (FileTree.mem_keys_of_node? h.ne_root h.file)

/-- A detour only makes a path longer. -/
theorem Denotes.slashedSize_le (h : files.Denotes path place content) :
    slashedSize place ≤ (files.fromRoot path).text.utf8ByteSize := by
  obtain ⟨rest, hrest⟩ := Path.segmentsOf_of_isAbsolute (isAbsolute_fromRoot files path)
  have hsize := slashedSize_segmentsOf (files.fromRoot path).text
  have hempty : "".utf8ByteSize = 0 := rfl
  have hleads := h.leads
  rw [hrest, slashedSize, hempty] at hsize
  rw [hrest] at hleads
  cases hleads with
  | stays hplace hsegment hrest =>
    have hbound := hrest.slashedSize_le
    rw [slashedSize] at hbound
    omega
  | up hplace hsegment hrest => exact absurd hsegment (by decide)
  | down hplace hsegment hrest => exact absurd rfl hsegment.1

theorem Denotes.ofNames (h : files.Denotes path place content) :
    files.Denotes (.ofNames place) place content := by
  have hplain : ∀ name ∈ place, PlainName name := fun name hname =>
    (h.fileName name hname).toPlainName
  have hlist := Path.toList_text_ofNames place
  have hwhole := fromRoot_of_isAbsolute (Path.isAbsolute_ofNames place) files
  refine ⟨?_, ?_, ?_, ?_, h.file⟩
  · rw [ne_eq, ← String.toList_eq_nil_iff, hlist]
    exact List.cons_ne_nil _ _
  · rw [hwhole, hlist, List.mem_cons, not_or]
    refine ⟨by decide, not_mem_intercalate (by decide) ?_⟩
    rw [List.forall_mem_map]
    exact fun name hname => (h.fileName name hname).no_zero
  · rw [hwhole, Path.utf8ByteSize_text_ofNames h.ne_root]
    exact Nat.lt_of_le_of_lt h.slashedSize_le h.short
  · rw [hwhole, Path.segmentsOf_ofNames h.ne_root hplain]
    have hwalk : files.walk [] .directory place = .ok (place, .file content) :=
      walk_below h.ne_root h.file
    exact .stays rfl (.inl rfl) (leads_of_walk rfl hwalk)

end Canonical

end FileSystem

/-! ## Locating imports -/

namespace Settings

/-- The path itself if it is absolute, and otherwise the path below the working directory. -/
def workingCandidate (settings : Settings) (path : String) : Path :=
  if (Path.mk path).isAbsolute then ⟨path⟩ else settings.workingDirectory.join path

/-- The path without the slashes and backslashes at its start, below the root of the workspace. -/
def workspaceCandidate (settings : Settings) (path : String) : Path :=
  settings.workspaceRoot.join
    (String.ofList (path.toList.dropWhile fun c => c = '/' ∨ c = '\\'))

theorem candidates_eq (settings : Settings) (path : String) :
    settings.candidates path =
      (settings.workingCandidate path, settings.workspaceCandidate path) := by
  have hsecond : (fun c : Char => c == '/' || c == '\\') =
      fun c => decide (c = '/' ∨ c = '\\') := by
    funext c
    rw [Bool.decide_or]
    rfl
  rw [candidates, workingCandidate, workspaceCandidate, hsecond]
  split
  · next habsolute =>
    rw [Path.isAbsolute, decide_eq_true_eq] at habsolute
    rw [Path.join, if_pos habsolute]
  · rfl

/-- `file` is the canonical path of the file that `path` leads to, which stands at `place`. -/
structure Locates (settings : Settings) (files : FileSystem) (path : String) (file : Path)
    (place : List String) (content : ByteArray) : Prop where
  /-- The first candidate that denotes a file denotes this one. -/
  candidate : files.Denotes (settings.workingCandidate path) place content ∨
    ¬ files.IsFile (settings.workingCandidate path) ∧
      files.Denotes (settings.workspaceCandidate path) place content
  same_file : files.Denotes file place content
  absolute : file.isAbsolute = true
  segments : segmentsOf '/' file.text = "" :: place
  plain : ∀ name ∈ place, PlainName name
  /-- Located again, under whichever settings, the file is at the same path. -/
  stable : ∀ other : Settings, other.locate files file.text = some file

section Locate

variable {files : FileSystem}

theorem locate_eq (settings : Settings) (files : FileSystem) (path : String) :
    settings.locate files path =
      (files.canonicalFile? (settings.workingCandidate path)).or
        (files.canonicalFile? (settings.workspaceCandidate path)) := by
  unfold locate
  rw [candidates_eq]
  dsimp only
  cases files.canonicalFile? (settings.workingCandidate path) with
  | none => rw [Option.none_or]
  | some file => rw [Option.some_or]

theorem exists_denotes_of_locate {settings : Settings}
    {path : String} {file : Path} (h : settings.locate files path = some file) :
    ∃ place content, file = .ofNames place ∧
      (files.Denotes (settings.workingCandidate path) place content ∨
        ¬ files.IsFile (settings.workingCandidate path) ∧
          files.Denotes (settings.workspaceCandidate path) place content) := by
  rw [locate_eq, Option.or_eq_some_iff] at h
  rcases h with hfirst | ⟨hnone, hsecond⟩
  · obtain ⟨place, content, hdenotes, hfile⟩ := FileSystem.canonicalFile?_eq_some_iff.1 hfirst
    exact ⟨place, content, hfile, .inl hdenotes⟩
  · obtain ⟨place, content, hdenotes, hfile⟩ := FileSystem.canonicalFile?_eq_some_iff.1 hsecond
    exact ⟨place, content, hfile, .inr ⟨FileSystem.canonicalFile?_eq_none_iff.1 hnone, hdenotes⟩⟩

/-- A canonical path that denotes a file is its own first candidate. -/
theorem locate_of_denotes {place : List String} {content : ByteArray}
    (h : files.Denotes (.ofNames place) place content) (other : Settings) :
    other.locate files (Path.ofNames place).text = some (.ofNames place) := by
  have hself : other.workingCandidate (Path.ofNames place).text = .ofNames place :=
    if_pos (Path.isAbsolute_ofNames place)
  have hfound : files.canonicalFile? (.ofNames place) = some (.ofNames place) :=
    FileSystem.canonicalFile?_eq_some_iff.2 ⟨place, content, h, rfl⟩
  rw [locate_eq, hself, hfound, Option.some_or]

/-- An import is located if one of its candidates denotes a file, at the canonical path of the first
one that does. -/
theorem locate_at_canonical_path (settings : Settings) (files : FileSystem) (path : String) :
    (settings.locate files path = none ↔
      ¬ files.IsFile (settings.workingCandidate path) ∧
        ¬ files.IsFile (settings.workspaceCandidate path)) ∧
      ∀ file, settings.locate files path = some file →
        ∃ place content, settings.Locates files path file place content := by
  constructor
  · rw [locate_eq, Option.or_eq_none_iff, FileSystem.canonicalFile?_eq_none_iff,
      FileSystem.canonicalFile?_eq_none_iff]
  · intro file h
    obtain ⟨place, content, rfl, hcandidate⟩ := exists_denotes_of_locate h
    obtain ⟨given, hgiven⟩ : ∃ given, files.Denotes given place content := by
      rcases hcandidate with hfirst | ⟨-, hsecond⟩
      · exact ⟨_, hfirst⟩
      · exact ⟨_, hsecond⟩
    have hplain : ∀ name ∈ place, PlainName name :=
      fun name hname => (hgiven.fileName name hname).toPlainName
    have hsame := hgiven.ofNames
    exact ⟨place, content, {
      candidate := hcandidate
      same_file := hsame
      absolute := Path.isAbsolute_ofNames place
      segments := Path.segmentsOf_ofNames hgiven.ne_root hplain
      plain := hplain
      stable := locate_of_denotes hsame }⟩

end Locate

/-- A workspace with one library, next to an empty working directory. -/
def sharedFiles : FileSystem :=
  (FileSystem.empty.makeDirectory ⟨"/work"⟩).writeFile ⟨"/shared/lib/Greetings.intent"⟩
    "library Greetings".toUTF8

def sharedSettings : Settings :=
  { ofDirectory ⟨"/work/."⟩ with workspaceRoot := ⟨"/work/../shared"⟩ }

/-- There is no such file at the root, so the library is found by way of the workspace. -/
theorem locate_at_canonical_path_sharedFiles :
    sharedSettings.locate sharedFiles "/\\/lib//../lib/./Greetings.intent" =
        some ⟨"/shared/lib/Greetings.intent"⟩ ∧
      ∃ place content, sharedSettings.Locates sharedFiles "/\\/lib//../lib/./Greetings.intent"
        ⟨"/shared/lib/Greetings.intent"⟩ place content := by
  have hlocate : sharedSettings.locate sharedFiles "/\\/lib//../lib/./Greetings.intent" =
      some ⟨"/shared/lib/Greetings.intent"⟩ := by
    decide +kernel
  exact ⟨hlocate, (locate_at_canonical_path sharedSettings sharedFiles _).2 _ hlocate⟩

end Settings

end CrossModel
