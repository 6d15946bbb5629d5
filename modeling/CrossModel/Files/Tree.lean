import CrossModel.OrderedMap

/-!
# Trees of files

A tree is a set of directories and files, each at the names that lead to it from the root. Every
name in it is one that a file can have, and everything stands in a directory. The changes of a tree
are those that keep this.
-/

namespace CrossModel

/-- The longest name in bytes that a file can have. -/
def nameLimit : Nat := 255

/-- A name that stands for itself wherever it is a segment of a path. -/
structure PlainName (name : String) : Prop where
  ne_empty : name ≠ ""
  ne_current : name ≠ "."
  ne_parent : name ≠ ".."
  no_slash : '/' ∉ name.toList

/-- A name that a file or a directory can have. -/
structure FileName (name : String) : Prop extends PlainName name where
  short : name.utf8ByteSize ≤ nameLimit
  no_zero : '\x00' ∉ name.toList

instance (name : String) : Decidable (FileName name) :=
  decidable_of_iff ((name ≠ "" ∧ name ≠ "." ∧ name ≠ ".." ∧ '/' ∉ name.toList) ∧
      name.utf8ByteSize ≤ nameLimit ∧ '\x00' ∉ name.toList)
    ⟨fun ⟨⟨hempty, hcurrent, hparent, hslash⟩, hshort, hzero⟩ =>
      ⟨⟨hempty, hcurrent, hparent, hslash⟩, hshort, hzero⟩,
    fun h => ⟨⟨h.ne_empty, h.ne_current, h.ne_parent, h.no_slash⟩, h.short, h.no_zero⟩⟩

inductive FileNode where
  | directory
  | file (content : ByteArray)
deriving Inhabited

instance : DecidableEq FileNode
  | .directory, .directory => isTrue rfl
  | .directory, .file _ => isFalse nofun
  | .file _, .directory => isFalse nofun
  | .file content, .file other =>
    decidable_of_iff (content.data = other.data) (by rw [FileNode.file.injEq, ByteArray.ext_iff])

def FileNode.isFile : FileNode → Bool
  | directory => false
  | file _ => true

/-- What nodes have at some names. The root is always there. -/
def FileTree.nodeAt? (nodes : OrderedMap (List String) FileNode) (place : List String) :
    Option FileNode :=
  if place.isEmpty then some .directory else nodes.get? place

/-- Directories and files by the names that lead to them. -/
structure FileTree where
  nodes : OrderedMap (List String) FileNode
  ne_root : ∀ place ∈ nodes.keys, place ≠ []
  names : ∀ place ∈ nodes.keys, ∀ name ∈ place, FileName name
  parents : ∀ place ∈ nodes.keys, FileTree.nodeAt? nodes place.dropLast = some .directory

namespace FileTree

/-- The root alone. -/
def empty : FileTree where
  nodes := .empty
  ne_root := nofun
  names := nofun
  parents := nofun

instance : Inhabited FileTree := ⟨empty⟩

def node? (tree : FileTree) (place : List String) : Option FileNode :=
  nodeAt? tree.nodes place

theorem mem_keys_of_node? {tree : FileTree} {place : List String} {node : FileNode}
    (hne : place ≠ []) (h : tree.node? place = some node) : place ∈ tree.nodes.keys := by
  rw [node?, nodeAt?, if_neg (by simpa using hne)] at h
  exact OrderedMap.mem_keys_of_get? h

theorem nodeAt?_insert (nodes : OrderedMap (List String) FileNode) {added : List String}
    (hadded : added ≠ []) (node : FileNode) (place : List String) :
    nodeAt? (nodes.insert added node) place =
      if added = place then some node else nodeAt? nodes place := by
  unfold nodeAt?
  cases place with
  | nil => simp [hadded]
  | cons name rest => exact OrderedMap.get?_insert nodes added (name :: rest) node

/-! ## Putting something into a directory -/

/-- Something can be put under a name into the directory at `place`: something new, or a file in
place of a file. -/
structure Admits (tree : FileTree) (place : List String) (name : String) (node : FileNode) :
    Prop where
  directory : tree.node? place = some .directory
  fileName : FileName name
  keeps : tree.node? (place ++ [name]) = some .directory → node = .directory

instance (tree : FileTree) (place : List String) (name : String) (node : FileNode) :
    Decidable (tree.Admits place name node) :=
  decidable_of_iff (tree.node? place = some .directory ∧ FileName name ∧
      (tree.node? (place ++ [name]) = some .directory → node = .directory))
    ⟨fun ⟨hdirectory, hname, hkeeps⟩ => ⟨hdirectory, hname, hkeeps⟩,
      fun h => ⟨h.directory, h.fileName, h.keeps⟩⟩

theorem mem_keys_insert {nodes : OrderedMap (List String) FileNode} {added place : List String}
    {node : FileNode} (h : place ∈ (nodes.insert added node).keys) :
    place ∈ nodes.keys ∨ place = added := by
  rw [OrderedMap.keys_insert] at h
  split at h
  · exact .inl h
  · simpa using h

def insert (tree : FileTree) {place : List String} {name : String} {node : FileNode}
    (h : tree.Admits place name node) : FileTree where
  nodes := tree.nodes.insert (place ++ [name]) node
  ne_root other hother := by
    rcases mem_keys_insert hother with hother | rfl
    · exact tree.ne_root other hother
    · simp
  names other hother := by
    rcases mem_keys_insert hother with hother | rfl
    · exact tree.names other hother
    · rw [List.forall_mem_append, List.forall_mem_singleton]
      refine ⟨?_, h.fileName⟩
      by_cases hroot : place = []
      · simp [hroot]
      · exact tree.names place (mem_keys_of_node? hroot h.directory)
  parents other hother := by
    -- A directory stays one, the one that the node is put in among them.
    have hold : ∀ directory, tree.node? directory = some .directory →
        nodeAt? (tree.nodes.insert (place ++ [name]) node) directory = some .directory := by
      intro directory hdirectory
      rw [nodeAt?_insert _ (by simp)]
      split
      · next heq => rw [h.keeps (heq ▸ hdirectory)]
      · exact hdirectory
    rcases mem_keys_insert hother with hother | rfl
    · exact hold _ (tree.parents other hother)
    · rw [List.dropLast_concat]
      exact hold place h.directory

/-- The tree with something put under a name into a directory, where that can be done. -/
def put (tree : FileTree) (place : List String) (name : String) (node : FileNode) : FileTree :=
  if h : tree.Admits place name node then tree.insert h else tree

theorem node?_put {tree : FileTree} {place : List String} {name : String} {node : FileNode}
    (h : tree.Admits place name node) (other : List String) :
    (tree.put place name node).node? other =
      if place ++ [name] = other then some node else tree.node? other := by
  rw [put, dif_pos h]
  exact nodeAt?_insert _ (by simp) node other

/-- Whether a segment of a path leads to where it starts. -/
def staysPut (segment : String) : Bool :=
  segment = "" || segment = "."

/-- Follows segments from the directory at `place`, and makes the directories that are missing on
the way, up to a file or a name that is too long. -/
def makeWay (tree : FileTree) (place : List String) : List String → FileTree
  | [] => tree
  | segment :: rest =>
    let next := place ++ [segment]
    if staysPut segment then tree.makeWay place rest
    else if segment = ".." then tree.makeWay place.dropLast rest
    else if nameLimit < segment.utf8ByteSize then tree
    else
      match tree.node? next with
      | some (.file _) => tree
      | some .directory => tree.makeWay next rest
      | none => (tree.put place segment .directory).makeWay next rest

/-! ## Dropping subtrees -/

/-- Places can be dropped together with all that stands below them. -/
def retain (tree : FileTree) (keep : List String → Bool)
    (h : ∀ place, keep place = true → keep place.dropLast = true) : FileTree where
  nodes := tree.nodes.filter fun place _ => keep place
  ne_root place hplace := tree.ne_root place (OrderedMap.mem_keys_filter_key.1 hplace).1
  names place hplace := tree.names place (OrderedMap.mem_keys_filter_key.1 hplace).1
  parents place hplace := by
    obtain ⟨hold, hkept⟩ := OrderedMap.mem_keys_filter_key.1 hplace
    have hparent := tree.parents place hold
    unfold nodeAt? at hparent ⊢
    split at hparent
    · next hroot => rw [if_pos hroot]
    · next hroot =>
      rw [if_neg hroot, OrderedMap.get?_filter_key, if_pos (h place hkept)]
      exact hparent

/-- A place that is not below another one is in a directory that is not either. -/
theorem not_isPrefixOf_dropLast {above place : List String}
    (h : (!above.isPrefixOf place) = true) : (!above.isPrefixOf place.dropLast) = true := by
  rw [Bool.not_eq_eq_eq_not, Bool.not_true, ← Bool.not_eq_true, List.isPrefixOf_iff_prefix] at h ⊢
  exact fun hopens => h (hopens.trans (List.dropLast_prefix place))

/-- The tree without what stands at or below a place. -/
def drop (tree : FileTree) (above : List String) : FileTree :=
  tree.retain (fun place => !above.isPrefixOf place) fun _ => not_isPrefixOf_dropLast

/-- The tree without what stands below a place. -/
def dropBelow (tree : FileTree) (above : List String) : FileTree :=
  tree.retain (fun place => place = above || !above.isPrefixOf place) fun place h => by
    rw [Bool.or_eq_true, decide_eq_true_eq] at h ⊢
    rcases h with rfl | h
    · cases hplace : place with
      | nil => exact .inl rfl
      | cons name rest =>
        refine .inr ?_
        rw [Bool.not_eq_eq_eq_not, Bool.not_true, ← Bool.not_eq_true, List.isPrefixOf_iff_prefix]
        intro hopens
        have hlength := hopens.length_le
        rw [List.length_dropLast, List.length_cons] at hlength
        omega
    · exact .inr (not_isPrefixOf_dropLast h)

end FileTree

end CrossModel
