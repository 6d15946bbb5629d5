import CrossModel.Files.System

/-!
# Settings

Where bundled definitions and imported files are looked for. An import path is taken from the
working directory first, or as it is if it is absolute, and from the root of the workspace second.
-/

namespace CrossModel

structure Settings where
  /-- The root of the bundled definitions, if there are any. -/
  bundleRoot : Option Path := none
  workingDirectory : Path
  workspaceRoot : Path
deriving DecidableEq, Repr, Inhabited

namespace Settings

/-- Settings without bundled definitions, for one directory. -/
def ofDirectory (directory : Path) : Settings where
  workingDirectory := directory
  workspaceRoot := directory

/-- Settings for a directory, with the bundle root that the environment names. An empty name is
none. -/
def ofEnvironment (directory : Path) (home : Option String) : Settings :=
  { ofDirectory directory with bundleRoot := (home.filter (· ≠ "")).map Path.mk }

/-- The two paths at which the file of an import is looked for, in this order. -/
def candidates (settings : Settings) (path : String) : Path × Path :=
  (settings.workingDirectory.join path,
    settings.workspaceRoot.join
      (String.ofList (path.toList.dropWhile fun c => c == '/' || c == '\\')))

/-- The file that an import path leads to. -/
def locate (settings : Settings) (files : FileSystem) (path : String) : Option Path :=
  let (first, second) := settings.candidates path
  match files.canonicalFile? first with
  | some file => some file
  | none => files.canonicalFile? second

end Settings

end CrossModel
