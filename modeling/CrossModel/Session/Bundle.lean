import CrossModel.Definition
import CrossModel.Document.Parser
import CrossModel.Files.Settings
import CrossModel.Link.ResolveError
import CrossModel.Log

/-!
# Bundled definitions

A bundle is a directory with a folder of platforms and a folder of libraries. Every document below
these folders is registered under a location made of its kind and its file name. Of documents with
one file name, the one whose path sorts last is kept. What cannot be read is reported and left out.
-/

namespace CrossModel

/-- Why a file gives no document. -/
inductive LoadError where
  | unreadable (path : Path) (cause : FileError)
  | malformed (path : Path) (cause : ParseError)
deriving DecidableEq, Repr, Inhabited

namespace LoadError

def message : LoadError → String
  | unreadable path cause => "cannot read " ++ path.text ++ ": " ++ cause.message
  | malformed path cause => "cannot parse " ++ path.text ++ ": " ++ cause.message

def importFailure : LoadError → ImportFailure
  | unreadable _ cause => .unreadable cause
  | malformed _ cause => .malformed cause

end LoadError

/-- Reads the document in a file and places it at a location. -/
def FileSystem.loadDocument (files : FileSystem) (path : Path) (location : String) :
    Except LoadError Document :=
  match files.readText path with
  | .error cause => .error (.unreadable path cause)
  | .ok source =>
    match Document.parse source location with
    | .error cause => .error (.malformed path cause)
    | .ok document => .ok document

namespace DefinitionKind

/-- The folder of a bundle for definitions of this kind. -/
def bundleFolder : DefinitionKind → String
  | platform => "plugins/platforms"
  | library => "plugins/libraries"

/-- What the locations of bundled definitions from this folder start with. -/
def bundleSpace : DefinitionKind → String
  | platform => "core://platforms/"
  | library => "core://libraries/"

/-- The location at which an import of this kind finds a bundled definition. The extension may be
missing from the path. -/
def bundleLocation (kind : DefinitionKind) (path : String) : String :=
  let ending := "." ++ kind.extension
  kind.bundleSpace ++
    if ending.toList.isSuffixOf path.toList then path else path ++ ending

end DefinitionKind

/-- A document of a bundle. -/
structure BundleEntry where
  location : String
  document : Document
deriving DecidableEq, Repr, Inhabited

/-- What reading a bundle found, and what it logged. -/
structure BundleScan where
  entries : List BundleEntry
  log : Log
deriving DecidableEq, Repr, Inhabited

namespace BundleScan

/-- Reads one file of a bundle folder. -/
def readFile (files : FileSystem) (kind : DefinitionKind) (path : Path) : BundleScan :=
  match path.fileName? with
  | none => ⟨[], []⟩
  | some name =>
    let location := kind.bundleSpace ++ name
    match files.loadDocument path location with
    | .ok document => ⟨[⟨location, document⟩], []⟩
    | .error error =>
      ⟨[], [.error ("An error occurred when loading the bundled file: " ++ error.message)]⟩

def append (first second : BundleScan) : BundleScan :=
  ⟨first.entries ++ second.entries, first.log ++ second.log⟩

/-- Reads all files of a bundle folder, sorted by path. -/
def ofFolder (files : FileSystem) (root : Path) (kind : DefinitionKind) : BundleScan :=
  let folder := root.join kind.bundleFolder
  match files.collect folder kind.extension with
  | .ok paths =>
    let scans := paths.map (readFile files kind)
    ⟨scans.flatMap (·.entries), scans.flatMap (·.log)⟩
  | .error error =>
    ⟨[], [.error ("Cannot walk " ++ folder.text ++ ": IO error for operation on " ++
      folder.text ++ ": " ++ error.message)]⟩

/-- Reads a bundle, its platforms first. -/
def ofRoot (files : FileSystem) (root : Path) : BundleScan :=
  (ofFolder files root .platform).append (ofFolder files root .library)

end BundleScan

/-- Bundled definitions by their locations. -/
structure Bundle where
  definitions : OrderedMap String Definition := .empty
deriving DecidableEq, Repr, Inhabited

namespace Bundle

def empty : Bundle := {}

def find? (bundle : Bundle) (location : String) : Option Definition :=
  bundle.definitions.get? location

/-- All definitions, sorted by location. -/
def sorted (bundle : Bundle) : List Definition :=
  (bundle.definitions.entries.mergeSort fun a b => decide (a.1 ≤ b.1)).map (·.2)

/-- Registers the definitions among the entries, which get the numbers from `id` on. A later entry
takes the place of an earlier one at its location. -/
def register (bundle : Bundle) (id : Nat) : List BundleEntry → Bundle × Nat
  | [] => (bundle, id)
  | entry :: rest =>
    match Definition.ofDocument? id entry.document with
    | some definition =>
      register ⟨bundle.definitions.insert entry.location definition⟩ (id + 1) rest
    | none => register bundle id rest

/-- What registering the entries logs. -/
def registerLog (entries : List BundleEntry) : Log :=
  entries.filterMap fun entry =>
    match entry.document with
    | .execution _ =>
      some (.error ("Bundled document " ++ entry.location ++ " is an " ++
        entry.document.kind.text ++ ", skipping it"))
    | _ => none

end Bundle

end CrossModel
