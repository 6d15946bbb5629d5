import CrossModel.Files.Path
import CrossModel.Files.Tree

/-!
# Files

A file system is a tree of files together with the directory from which relative paths start.
Looking a path up goes from segment to segment: each one but the last has to lead to a directory,
and so has the last one if a slash or a dot follows it.
-/

namespace CrossModel

/-- Why a path cannot be read. -/
inductive FileError where
  | notFound
  | notDirectory
  | isDirectory
  | nameTooLong
  | zeroByte
  | invalidText
  /-- A fault in words of its own. -/
  | other (text : String)
deriving DecidableEq, Repr, Inhabited

def FileError.message : FileError → String
  | notFound => "No such file or directory (os error 2)"
  | notDirectory => "Not a directory (os error 20)"
  | isDirectory => "Is a directory (os error 21)"
  | nameTooLong => "File name too long (os error 36)"
  | zeroByte => "file name contained an unexpected NUL byte"
  | invalidText => "stream did not contain valid UTF-8"
  | other text => text

structure FileSystem extends FileTree where
  /-- The current directory. -/
  current : Path
  absolute : current.isAbsolute = true

namespace FileSystem

/-- No files, seen from the root. -/
def empty : FileSystem where
  toFileTree := .empty
  current := ⟨"/"⟩
  absolute := by decide

instance : Inhabited FileSystem := ⟨empty⟩

/-- The number of bytes, counted from the root, at which a path is too long to be looked up. -/
def pathLimit : Nat := 4096

/-- The path from the root: one that is not absolute starts at the current directory. -/
def fromRoot (files : FileSystem) (path : Path) : Path :=
  files.current.join path.text

/-- Why a path leads nowhere, whatever the directories and files are. -/
def refusal? (files : FileSystem) (path : Path) : Option FileError :=
  if path.text = "" then some .notFound
  else if (files.fromRoot path).text.toList.contains '\x00' then some .zeroByte
  else if pathLimit ≤ (files.fromRoot path).text.utf8ByteSize then some .nameTooLong
  else none

/-- Where segments lead, starting at the node at `names`. -/
def walk (files : FileSystem) (names : List String) (node : FileNode) :
    List String → Except FileError (List String × FileNode)
  | [] => .ok (names, node)
  | segment :: rest =>
    if node.isFile then .error .notDirectory
    else if FileTree.staysPut segment then files.walk names node rest
    else if segment = ".." then files.walk names.dropLast .directory rest
    else if nameLimit < segment.utf8ByteSize then .error .nameTooLong
    else
      match files.node? (names ++ [segment]) with
      | some next => files.walk (names ++ [segment]) next rest
      | none => .error .notFound

/-- The node that a path leads to, and the names that lead to it from the root. -/
def find (files : FileSystem) (path : Path) : Except FileError (List String × FileNode) :=
  match files.refusal? path with
  | some error => .error error
  | none => files.walk [] .directory (segmentsOf '/' (files.fromRoot path).text)

/-- The absolute path of a file without detours, if the path leads to a file. -/
def canonicalFile? (files : FileSystem) (path : Path) : Option Path :=
  match files.find path with
  | .ok (names, .file _) => some (.ofNames names)
  | _ => none

def readText (files : FileSystem) (path : Path) : Except FileError String :=
  match files.find path with
  | .error error => .error error
  | .ok (_, .directory) => .error .isDirectory
  | .ok (_, .file content) =>
    match String.fromUTF8? content with
    | some text => .ok text
    | none => .error .invalidText

/-- All files at or below a path, at any depth. -/
def filesBelow (files : FileSystem) (path : Path) : Except FileError (List Path) :=
  match files.find path with
  | .error error => .error error
  | .ok (_, .file _) => .ok [path]
  | .ok (top, .directory) =>
    .ok (files.nodes.entries.filterMap fun (names, node) =>
      if node.isFile && top.isPrefixOf names then
        some ((names.drop top.length).foldl Path.join path)
      else none)

/-- The files with this extension at or below a path, sorted by path. -/
def collect (files : FileSystem) (path : Path) (extension : String) :
    Except FileError (List Path) :=
  (files.filesBelow path).map fun found =>
    (found.filter (·.extension? = some extension)).mergeSort Path.sortsBefore

/-! ## Changes

A change that cannot be made leaves what stands in its way as it is.
-/

/-- Makes a directory, and those on the way to it. A dot behind the last name asks for a directory
that is there already, so that name is not made. -/
def makeDirectory (files : FileSystem) (path : Path) : FileSystem :=
  let backwards := (segmentsOf '/' (files.fromRoot path).text).reverse
  let before := backwards.dropWhile FileTree.staysPut
  let way := if (backwards.takeWhile FileTree.staysPut).contains "." then before.tail else before
  match files.refusal? path with
  | some _ => files
  | none => { files with toFileTree := files.makeWay [] way.reverse }

/-- The directory in which the last segment of a path stands, slashes and dots at the end left
out. -/
def directoryAbove (path : Path) : Path :=
  let before := ((segmentsOf '/' path.text).reverse.dropWhile FileTree.staysPut).tail
  ⟨"/".intercalate (before.dropWhile FileTree.staysPut).reverse ++ "/"⟩

/-- Writes a file, in place of what it held before. The directories on the way to it are made
first, also where the file itself cannot be written: a path that ends in a slash or a dot is none
of a file. -/
def writeFile (files : FileSystem) (path : Path) (content : ByteArray) : FileSystem :=
  let whole := files.fromRoot path
  let made := files.makeDirectory (directoryAbove whole)
  match files.refusal? path, made.find (directoryAbove whole),
    (segmentsOf '/' whole.text).getLast? with
  | none, .ok (names, .directory), some last =>
    { made with toFileTree := made.put names last (.file content) }
  | _, _, _ => made

/-- Whether the last segment of a path, slashes at the end left out, is a name. -/
def endsInName (path : Path) : Bool :=
  match (segmentsOf '/' path.text).reverse.dropWhile (· = "") with
  | [] => false
  | last :: _ => last ≠ "." && last ≠ ".."

/-- Removes all that stands below what a path leads to, and then that itself, if the path ends in
its name and still leads there. -/
def remove (files : FileSystem) (path : Path) : FileSystem :=
  match files.find path with
  | .error _ => files
  | .ok (names, _) =>
    let emptied := { files with toFileTree := files.dropBelow names }
    match endsInName path, emptied.find path with
    | true, .ok _ => { files with toFileTree := files.drop names }
    | _, _ => emptied

end FileSystem

end CrossModel
