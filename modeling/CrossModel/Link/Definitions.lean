import CrossModel.Link.Scope
import CrossModel.Text.Segments

/-!
# Linked platforms and libraries

The one reference of a platform is to the platform that it extends. In a library an intent can
follow another one, named alone or behind the name of the library and a dot. This link is made only
if exactly one intent has the name, and it is kept at both ends.
-/

namespace CrossModel

/-! ## Platforms -/

structure LinkedPlatform where
  location : String
  failedImports : List FailedImport
  base : Option (Link (Shared Platform))
deriving DecidableEq, Repr

def Scope.linkPlatform (scope : Scope) (platform : Platform) : LinkedPlatform where
  location := platform.location
  failedImports := scope.failures
  base := platform.base.map fun reference =>
    .establish .platformBase reference fun r => (scope.base? r.text).toList

def LinkedPlatform.diagnostics (linked : LinkedPlatform) : List Diagnostic :=
  Diagnostic.inSourceOrder
    (linked.failedImports.map (Diagnostic.ofFailedImport linked.location) ++
      linked.base.toList.flatMap (Diagnostic.ofLink linked.location .platformBase))

/-! ## Libraries -/

structure LinkedLibrary where
  location : String
  /-- For each event, the link to the intent that it follows, if it names one. -/
  follows : List (Option (Link Nat))
  /-- For each event, the events that follow it. -/
  followedBy : List (List Nat)
deriving DecidableEq, Repr

namespace Library

/-- The indices of the intents with this name. -/
def intentsNamed (library : Library) (name : String) : List Nat :=
  library.events.zipIdx.filterMap fun (event, index) =>
    if event.isIntent && event.name.text = name then some index else none

/-- The intents that a text can refer to. -/
def followsCandidates (library : Library) (text : String) : List Nat :=
  match segmentsOf '.' (trimmed text) with
  | [name] => library.intentsNamed name
  | [owner, name] => if owner = library.name.text then library.intentsNamed name else []
  | _ => []

/-- The link of an event to the intent that it follows. -/
def linkFollows (library : Library) (event : Event) : Option (Link Nat) :=
  event.follows.map fun reference =>
    .establish .followedIntent reference fun r => library.followsCandidates r.text

end Library

namespace LinkedLibrary

/-- Enters the event with this index among the followers of the one that it follows. -/
def addFollower (followers : List (List Nat)) (link : Option (Link Nat) × Nat) :
    List (List Nat) :=
  match link.1 with
  | some (.resolved target) => followers.modify target (· ++ [link.2])
  | _ => followers

/-- The followers of each event. -/
def followers (follows : List (Option (Link Nat))) : List (List Nat) :=
  follows.zipIdx.foldl addFollower (List.replicate follows.length [])

def diagnostics (linked : LinkedLibrary) : List Diagnostic :=
  Diagnostic.inSourceOrder (linked.follows.flatMap fun link =>
    link.toList.flatMap (Diagnostic.ofLink linked.location .followedIntent))

end LinkedLibrary

def Library.link (library : Library) : LinkedLibrary :=
  let follows := library.events.map library.linkFollows
  { location := library.location, follows, followedBy := LinkedLibrary.followers follows }

end CrossModel
