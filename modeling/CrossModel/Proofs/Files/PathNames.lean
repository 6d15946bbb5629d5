import CrossModel.Proofs.Files.Canonical

/-!
# Names behind a path

The path of a directory with names behind it has the components of the directory followed by the
names, so different names give different paths. The last name is the file name, and what stands
behind its last dot is the extension. Paths are sorted by their components in a linear order.
-/

namespace CrossModel

namespace Path

/-- The path ends in a segment that is not empty. -/
def EndsOpen (path : Path) : Prop :=
  ∃ c, path.text.toList.getLast? = some c ∧ c ≠ '/'

theorem EndsOpen.ne_nil {path : Path} (h : path.EndsOpen) : path.text.toList ≠ [] := by
  obtain ⟨c, hlast, -⟩ := h
  intro heq
  rw [heq] at hlast
  cases hlast

theorem text_join {base : Path} {name : String} (hbase : base.EndsOpen) (hname : PlainName name) :
    (base.join name).text = base.text ++ "/" ++ name := by
  obtain ⟨c, hlast, hc⟩ := hbase
  have hhead : name.toList.head? ≠ some '/' := by
    intro hhead
    exact hname.no_slash (List.mem_of_mem_head? hhead)
  have hempty : base.text ≠ "" := by
    intro heq
    rw [heq] at hlast
    cases hlast
  have hslash : base.text.toList.getLast? ≠ some '/' := by
    rw [hlast]
    simpa using hc
  unfold join
  simp [hhead, hempty, hslash]

/-- A path with a plain name behind its last slash. -/
theorem endsOpen_of_text {path : Path} {before : List Char} {name : String}
    (hpath : path.text.toList = before ++ '/' :: name.toList) (hname : PlainName name) :
    path.EndsOpen := by
  have hne : name.toList ≠ [] := by
    intro heq
    exact hname.ne_empty (String.toList_eq_nil_iff.1 heq)
  refine ⟨name.toList.getLast hne, ?_, ?_⟩
  · rw [hpath, List.getLast?_append, List.getLast?_cons, List.getLast?_eq_some_getLast hne]
    rfl
  · intro heq
    exact hname.no_slash (heq ▸ List.getLast_mem hne)

theorem fileName?_of_text {path : Path} {before : List Char} {name : String}
    (hpath : path.text.toList = before ++ '/' :: name.toList) (hname : PlainName name) :
    path.fileName? = some name := by
  have hsegments : segmentsOf '/' path.text =
      (before.splitOn '/').map String.ofList ++ [name] := by
    rw [segmentsOf, hpath, List.splitOn_append_cons_self, List.splitOn_eq_singleton hname.no_slash,
      List.map_append]
    simp
  unfold fileName? components
  rw [hsegments]
  cases hbefore : before.splitOn '/' with
  | nil => exact absurd hbefore (List.splitOn_ne_nil '/' before)
  | cons first others =>
    rw [List.map_cons, List.cons_append]
    simp only [List.filterMap_append, List.filterMap_cons_some hname.ofSegment?,
      List.filterMap_nil, ← List.append_assoc, List.getLast?_concat]

theorem EndsOpen.join {base : Path} {name : String} (hbase : base.EndsOpen)
    (hname : PlainName name) : (base.join name).EndsOpen := by
  have htext : (base.join name).text.toList = base.text.toList ++ '/' :: name.toList := by
    rw [text_join hbase hname]
    simp
  exact endsOpen_of_text htext hname

theorem isAbsolute_join {base : Path} (h : base.isAbsolute = true) (text : String) :
    (base.join text).isAbsolute = true := by
  rw [isAbsolute, decide_eq_true_eq] at h ⊢
  unfold join
  split
  · next htext => exact htext
  · split <;> simp [List.head?_append, h]

/-- A path that is not absolute ends, behind a directory, as it did before. -/
theorem EndsOpen.join_text {path : Path} (h : path.EndsOpen) (base : Path) :
    (base.join path.text).EndsOpen := by
  obtain ⟨c, hlast, hc⟩ := h
  have hbehind : ∀ before : String, (before ++ path.text).toList.getLast? = some c := by
    intro before
    rw [String.toList_append, List.getLast?_append, hlast, Option.some_or]
  unfold Path.join
  split
  · exact ⟨c, hlast, hc⟩
  · split
    · exact ⟨c, hbehind base.text, hc⟩
    · exact ⟨c, hbehind (base.text ++ "/"), hc⟩

/-- Names can be put behind a path before or after a directory is put in front of it. -/
theorem join_text_join {path : Path} {name : String} (hpath : path.EndsOpen)
    (hname : PlainName name) (base : Path) :
    base.join (path.join name).text = (base.join path.text).join name := by
  have hhead : (path.text ++ "/" ++ name).toList.head? = path.text.toList.head? := by
    rw [String.toList_append, String.toList_append, List.append_assoc, List.head?_append,
      List.head?_eq_some_head hpath.ne_nil, Option.some_or]
  have hright : (base.join path.text).join name =
      ⟨(base.join path.text).text ++ "/" ++ name⟩ :=
    congrArg Path.mk (text_join (hpath.join_text base) hname)
  rw [text_join hpath hname, hright, join, join, hhead]
  split
  · rfl
  · split <;> simp only [String.append_assoc]

/-- The path that leads from a directory along names. -/
def below (folder : Path) (names : List String) : Path :=
  names.foldl Path.join folder

theorem join_text_below {folder : Path} {names : List String} (hfolder : folder.EndsOpen)
    (hnames : ∀ name ∈ names, PlainName name) (base : Path) :
    base.join (folder.below names).text = (base.join folder.text).below names := by
  induction names generalizing folder with
  | nil => rfl
  | cons name rest ih =>
    obtain ⟨hname, hrest⟩ := List.forall_mem_cons.1 hnames
    have hbelow : folder.below (name :: rest) = (folder.join name).below rest := rfl
    rw [hbelow, ih (hfolder.join hname) hrest, join_text_join hfolder hname]
    rfl

section Below

variable {folder : Path} {names : List String}

theorem toList_text_below (hfolder : folder.EndsOpen) (hnames : ∀ name ∈ names, PlainName name) :
    (folder.below names).text.toList =
      folder.text.toList ++ names.flatMap fun name => '/' :: name.toList := by
  induction names generalizing folder with
  | nil => exact (List.append_nil _).symm
  | cons name rest ih =>
    obtain ⟨hname, hrest⟩ := List.forall_mem_cons.1 hnames
    have hbelow : folder.below (name :: rest) = (folder.join name).below rest := rfl
    rw [hbelow, ih (hfolder.join hname) hrest, text_join hfolder hname]
    simp

theorem splitOn_append_flatMap {names : List String} (hnames : ∀ name ∈ names, PlainName name)
    (cs : List Char) :
    (cs ++ names.flatMap fun name => '/' :: name.toList).splitOn '/' =
      cs.splitOn '/' ++ names.map String.toList := by
  induction names generalizing cs with
  | nil => simp
  | cons name rest ih =>
    obtain ⟨hname, hrest⟩ := List.forall_mem_cons.1 hnames
    have hfirst : (cs ++ '/' :: name.toList).splitOn '/' = cs.splitOn '/' ++ [name.toList] := by
      rw [List.splitOn_append_cons_self, List.splitOn_eq_singleton hname.no_slash]
    rw [List.flatMap_cons, ← List.append_assoc, ih hrest, hfirst]
    simp

theorem segmentsOf_below (hfolder : folder.EndsOpen) (hnames : ∀ name ∈ names, PlainName name) :
    segmentsOf '/' (folder.below names).text = segmentsOf '/' folder.text ++ names := by
  unfold segmentsOf
  rw [toList_text_below hfolder hnames, splitOn_append_flatMap hnames]
  simp [Function.comp_def]

theorem isAbsolute_below (hfolder : folder.EndsOpen) (hnames : ∀ name ∈ names, PlainName name) :
    (folder.below names).isAbsolute = folder.isAbsolute := by
  unfold isAbsolute
  rw [toList_text_below hfolder hnames, List.head?_append,
    List.head?_eq_some_head hfolder.ne_nil, Option.some_or]

theorem components_below (hfolder : folder.EndsOpen) (hnames : ∀ name ∈ names, PlainName name) :
    (folder.below names).components = folder.components ++ names.map .name := by
  unfold components
  rw [segmentsOf_below hfolder hnames, isAbsolute_below hfolder hnames]
  cases hsegments : segmentsOf '/' folder.text with
  | nil => exact absurd hsegments (segmentsOf_ne_nil '/' folder.text)
  | cons first others =>
    simp only [List.cons_append, List.filterMap_append, filterMap_ofSegment? hnames,
      List.append_assoc]

/-- Paths along different names from one directory differ in their components. -/
theorem below_inj {others : List String} (hfolder : folder.EndsOpen)
    (hnames : ∀ name ∈ names, PlainName name) (hothers : ∀ name ∈ others, PlainName name)
    (h : (folder.below names).components = (folder.below others).components) : names = others := by
  rw [components_below hfolder hnames, components_below hfolder hothers] at h
  exact (List.map_inj_right fun _ _ => Component.name.inj).1 (List.append_cancel_left h)

theorem fileName?_below {last : String} (hfolder : folder.EndsOpen)
    (hnames : ∀ name ∈ names ++ [last], PlainName name) :
    (folder.below (names ++ [last])).fileName? = some last := by
  have htext := toList_text_below hfolder hnames
  rw [List.flatMap_append, ← List.append_assoc, List.flatMap_singleton] at htext
  exact fileName?_of_text htext (hnames last (by simp))

end Below

/-! ## Extensions -/

/-- Only the empty text is cut into nothing but an empty stretch. -/
theorem splitOn_eq_singleton_nil_iff (separator : Char) {cs : List Char} :
    cs.splitOn separator = [[]] ↔ cs = [] := by
  constructor
  · intro h
    have hjoined : [separator].intercalate (cs.splitOn separator) = cs :=
      List.intercalate_splitOn separator
    rw [h] at hjoined
    exact hjoined.symm
  · rintro rfl
    exact List.splitOn_nil separator

/-- The part of a file name behind its last dot is the extension, unless nothing stands before the
dot. -/
theorem extension?_of_fileName? {path : Path} {name : String} {stem ending : List Char}
    (hpath : path.fileName? = some name) (hname : name.toList = stem ++ '.' :: ending)
    (hending : '.' ∉ ending) :
    path.extension? = if stem = [] then none else some (String.ofList ending) := by
  have hsegments : (segmentsOf '.' name).reverse =
      String.ofList ending :: ((stem.splitOn '.').map String.ofList).reverse := by
    rw [segmentsOf, hname, List.splitOn_append_cons_self, List.splitOn_eq_singleton hending]
    simp
  have hempty : ((stem.splitOn '.').map String.ofList).reverse = [""] ↔ stem = [] := by
    rw [← splitOn_eq_singleton_nil_iff '.', List.reverse_eq_iff,
      List.reverse_singleton, List.map_eq_singleton_iff]
    simp
  unfold extension?
  simp only [hpath, hsegments, ← hempty]
  cases hfront : ((stem.splitOn '.').map String.ofList).reverse with
  | nil => simp at hfront
  | cons previous front =>
    by_cases hnone : previous :: front = [""]
    · rw [if_pos hnone, hnone]
      rfl
    · rw [if_neg hnone]
      split
      · next h => cases h
      · next h => cases h
      · next h =>
        cases h
        exact absurd rfl hnone
      · next h =>
        cases h
        rfl

/-- A path has an extension if its file name ends in a dot and the extension, with something in
front of them. -/
theorem extension?_eq_some_iff {path : Path} {name ending : String}
    (hpath : path.fileName? = some name) (hending : '.' ∉ ending.toList) :
    path.extension? = some ending ↔ ∃ stem, stem ≠ "" ∧ name = stem ++ "." ++ ending := by
  constructor
  · intro h
    by_cases hdot : '.' ∈ name.toList
    · obtain ⟨behind, before, hsplit, hbehind⟩ :=
        List.eq_append_cons_of_mem (List.mem_reverse.2 hdot)
      have hname : name.toList = before.reverse ++ '.' :: behind.reverse := by
        rw [← List.reverse_reverse name.toList, hsplit]
        simp
      rw [extension?_of_fileName? hpath hname (by simpa using hbehind)] at h
      split at h
      · cases h
      · next hstem =>
        cases h
        refine ⟨String.ofList before.reverse, by simpa using hstem, ?_⟩
        rw [← String.toList_inj, hname]
        simp
    · simp [extension?, hpath, segmentsOf, List.splitOn_eq_singleton hdot] at h
  · rintro ⟨stem, hstem, rfl⟩
    have hname : (stem ++ "." ++ ending).toList = stem.toList ++ '.' :: ending.toList := by
      simp
    rw [extension?_of_fileName? hpath hname hending, if_neg (by simpa using hstem),
      String.ofList_toList]

/-! ## Order -/

instance : Std.TransOrd Component :=
  inferInstanceAs (Std.TransCmp (compareLex (compareOn Component.rank) (compareOn Component.text)))

/-- Components that compare as equal have the same rank and the same text. -/
instance : Std.LawfulEqOrd Component where
  compare_self := Std.ReflCmp.compare_self
  eq_of_compare {a b} h := by
    obtain ⟨hrank, htext⟩ := compareLex_eq_eq.1 h
    have hrank : a.rank = b.rank := Std.LawfulEqOrd.eq_of_compare hrank
    have htext : a.text = b.text := Std.LawfulEqOrd.eq_of_compare htext
    cases a with
    | name own =>
      cases b with
      | name other => exact congrArg Component.name htext
      | _ => cases hrank
    | _ => cases b <;> first | rfl | cases hrank

theorem sortsBefore_trans {a b c : Path} (hfirst : a.sortsBefore b = true)
    (hsecond : b.sortsBefore c = true) : a.sortsBefore c = true :=
  Std.TransCmp.isLE_trans hfirst hsecond

theorem sortsBefore_total (a b : Path) : (a.sortsBefore b || b.sortsBefore a) = true := by
  have hswap : compare b.components a.components =
      (compare a.components b.components).swap := Std.OrientedCmp.eq_swap
  unfold sortsBefore
  rw [hswap]
  cases compare a.components b.components <;> rfl

theorem components_eq_of_sortsBefore {a b : Path} (hfirst : a.sortsBefore b = true)
    (hsecond : b.sortsBefore a = true) : a.components = b.components :=
  Std.LawfulEqCmp.eq_of_compare (Std.OrientedCmp.isLE_antisymm hfirst hsecond)

end Path

end CrossModel
