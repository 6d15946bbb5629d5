import CrossModel.Files.Settings

/-!
# Canonical paths

Following a path collects the names on the way from the root, and these are plain: none is empty, a
dot or two dots, and none holds a slash. A path that plain names spell is canonical. Paths are
compared by their components, and for canonical paths that is equality, so two imports lead to one
file if and only if they are located at one path.
-/

namespace CrossModel

/-! ## Segments of a joined text -/

/-- The segments of a text are the parts without separators that it is joined from. -/
theorem segmentsOf_eq_iff {separator : Char} {text : String} {parts : List String} :
    segmentsOf separator text = parts ↔
      parts ≠ [] ∧ text.toList = [separator].intercalate (parts.map String.toList) ∧
        ∀ part ∈ parts, separator ∉ part.toList := by
  constructor
  · rintro rfl
    have hlists : (segmentsOf separator text).map String.toList =
        text.toList.splitOn separator := by
      simp [segmentsOf]
    refine ⟨segmentsOf_ne_nil separator text, ?_, fun _ => not_mem_of_mem_segmentsOf⟩
    rw [hlists, List.intercalate_splitOn]
  · rintro ⟨hne, htext, hparts⟩
    rw [segmentsOf, htext, List.splitOn_intercalate separator (by simpa using hparts)
      (by simpa using hne)]
    simp

/-! ## Plain names -/

theorem PlainName.ofSegment? {name : String} (h : PlainName name) :
    Path.Component.ofSegment? name = some (.name name) := by
  unfold Path.Component.ofSegment?
  simp [h.ne_empty, h.ne_current, h.ne_parent]

theorem filterMap_ofSegment? {names : List String} (h : ∀ name ∈ names, PlainName name) :
    names.filterMap Path.Component.ofSegment? = names.map .name := by
  induction names with
  | nil => rfl
  | cons name others ih =>
    have hothers := ih fun other hother => h other (List.mem_cons_of_mem name hother)
    rw [List.filterMap_cons_some (h name List.mem_cons_self).ofSegment?, hothers, List.map_cons]

namespace Path

/-- The path leads from the root through plain names, without detours. -/
def IsCanonical (path : Path) : Prop :=
  ∃ names, (∀ name ∈ names, PlainName name) ∧ path = ofNames names

theorem toList_text_ofNames (names : List String) :
    (ofNames names).text.toList = '/' :: ['/'].intercalate (names.map String.toList) := by
  unfold ofNames
  rw [String.toList_append, String.toList_intercalate]
  rfl

theorem segmentsOf_ofNames {names : List String} (hne : names ≠ [])
    (h : ∀ name ∈ names, PlainName name) :
    segmentsOf '/' (ofNames names).text = "" :: names := by
  rw [segmentsOf_eq_iff]
  refine ⟨List.cons_ne_nil "" names, ?_, ?_⟩
  · rw [toList_text_ofNames, List.map_cons,
      List.intercalate_cons_of_ne_nil (by simpa using hne)]
    rfl
  · rw [List.forall_mem_cons]
    exact ⟨by decide, fun name hname => (h name hname).no_slash⟩

theorem isAbsolute_ofNames (names : List String) : (ofNames names).isAbsolute = true := by
  rw [isAbsolute, toList_text_ofNames]
  rfl

theorem components_ofNames {names : List String} (h : ∀ name ∈ names, PlainName name) :
    (ofNames names).components = .root :: names.map .name := by
  cases names with
  | nil => decide
  | cons name others =>
    unfold components
    rw [segmentsOf_ofNames (List.cons_ne_nil name others) h]
    simp only [isAbsolute_ofNames, if_true, filterMap_ofSegment? h, List.singleton_append]

/-- Canonical paths with the same components are equal. -/
theorem IsCanonical.same_iff {a b : Path} (ha : a.IsCanonical) (hb : b.IsCanonical) :
    a.same b = true ↔ a = b := by
  obtain ⟨first, hfirst, rfl⟩ := ha
  obtain ⟨second, hsecond, rfl⟩ := hb
  unfold same
  rw [decide_eq_true_iff]
  constructor
  · intro heq
    rw [components_ofNames hfirst, components_ofNames hsecond] at heq
    have hnames : first = second :=
      (List.map_inj_right fun _ _ => Component.name.inj).1 (List.cons.inj heq).2
    rw [hnames]
  · intro heq
    rw [heq]

end Path

/-! ## Where imports lead -/

namespace FileSystem

/-- Every step of a walk keeps the names plain: it adds a segment that is neither empty nor a dot,
or drops the last name. -/
theorem plainName_of_walk {files : FileSystem} {names : List String} {node : FileNode}
    {segments : List String} {result : List String × FileNode}
    (hnames : ∀ name ∈ names, PlainName name)
    (hsegments : ∀ segment ∈ segments, '/' ∉ segment.toList)
    (h : files.walk names node segments = .ok result) : ∀ name ∈ result.1, PlainName name := by
  induction segments generalizing names node with
  | nil =>
    cases h
    exact hnames
  | cons segment rest ih =>
    have hrest : ∀ other ∈ rest, '/' ∉ other.toList :=
      fun other hother => hsegments other (List.mem_cons_of_mem segment hother)
    rw [walk] at h
    split at h
    · cases h
    · split at h
      · exact ih hnames hrest h
      · next hstays =>
        split at h
        · exact ih (fun name hname => hnames name (List.dropLast_subset names hname)) hrest h
        · next hparent =>
          split at h
          · cases h
          · split at h
            · refine ih ?_ hrest h
              intro name hname
              rcases List.mem_append.1 hname with hname | hname
              · exact hnames name hname
              · rw [List.mem_singleton.1 hname]
                simp only [FileTree.staysPut, Bool.or_eq_true, decide_eq_true_eq, not_or] at hstays
                exact ⟨hstays.1, hstays.2, hparent, hsegments segment List.mem_cons_self⟩
            · cases h

theorem isCanonical_of_canonicalFile? {files : FileSystem} {path file : Path}
    (h : files.canonicalFile? path = some file) : file.IsCanonical := by
  unfold canonicalFile? find at h
  split at h
  · next names content hfind =>
    cases h
    refine ⟨names, ?_, rfl⟩
    split at hfind
    · cases hfind
    · exact plainName_of_walk (fun _ hname => absurd hname List.not_mem_nil)
        (fun _ => not_mem_of_mem_segmentsOf) hfind
  · cases h

end FileSystem

theorem Settings.isCanonical_of_locate {settings : Settings} {files : FileSystem} {path : String}
    {file : Path} (h : settings.locate files path = some file) : file.IsCanonical := by
  unfold locate at h
  simp only at h
  split at h
  · next found hfound =>
    cases h
    exact FileSystem.isCanonical_of_canonicalFile? hfound
  · exact FileSystem.isCanonical_of_canonicalFile? h

end CrossModel
