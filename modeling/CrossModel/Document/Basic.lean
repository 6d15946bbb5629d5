import CrossModel.Document.Condition

/-!
# Documents

A document holds one platform, one library or one execution model, together with its imports. A
platform groups events by the provider that raises them; a library lists events and intents; an
execution model reacts to events by moving between states. References to other definitions are kept
as text.
-/

namespace CrossModel

/-- What an intent has beyond an event. -/
structure IntentDetails where
  /-- The intent that this one comes after. -/
  follows : Option Reference := none
  /-- Sample phrases. -/
  inputs : List String := []
deriving DecidableEq, Repr, Inhabited

/-- An event, or an intent if it has `intent` details. -/
structure Event where
  name : Name
  parameters : List Name := []
  intent : Option IntentDetails := none
deriving DecidableEq, Repr, Inhabited

namespace Event

def isIntent (event : Event) : Bool :=
  event.intent.isSome

def follows (event : Event) : Option Reference :=
  event.intent.bind (·.follows)

end Event

/-- A source of events. -/
structure Provider where
  name : Name
  events : List Event := []
deriving DecidableEq, Repr, Inhabited

/-- The first event with this name. -/
def Provider.event? (provider : Provider) (name : String) : Option Event :=
  provider.events.find? (·.name.text = name)

structure Platform where
  name : Name
  isAbstract : Bool := false
  /-- The platform that this one extends. -/
  base : Option Reference := none
  imports : List ImportDeclaration := []
  providers : List Provider := []
  location : String := ""
deriving DecidableEq, Repr, Inhabited

namespace Platform

/-- The first provider with this name. -/
def provider? (platform : Platform) (name : String) : Option Provider :=
  platform.providers.find? (·.name.text = name)

/-- The events of all providers. -/
def events (platform : Platform) : List Event :=
  platform.providers.flatMap (·.events)

end Platform

structure Library where
  name : Name
  imports : List ImportDeclaration := []
  events : List Event := []
  location : String := ""
deriving DecidableEq, Repr, Inhabited

namespace Library

/-- The first event with this name. -/
def event? (library : Library) (name : String) : Option Event :=
  library.events.find? (·.name.text = name)

def intents (library : Library) : List Event :=
  library.events.filter (·.isIntent)

end Library

/-- A move to a state, under a condition if there is one. -/
structure Transition where
  state : Reference
  condition : Option Condition
  span : Span
deriving DecidableEq, Repr, Inhabited

/-- The transitions that an event can trigger. -/
structure Rule where
  event : Reference
  transitions : List Transition
  span : Span
deriving DecidableEq, Repr, Inhabited

structure Execution where
  imports : List ImportDeclaration := []
  /-- The providers in use, each as `Platform.Provider`. -/
  providers : List Reference := []
  states : List Name := []
  rules : List Rule := []
  location : String := ""
deriving DecidableEq, Repr, Inhabited

/-- The index of the first state with this name. -/
def Execution.stateIndex? (model : Execution) (name : String) : Option Nat :=
  model.states.findIdx? (·.text = name)

inductive DocumentKind where
  | definition (kind : DefinitionKind)
  | execution
deriving DecidableEq, Repr, Inhabited

def DocumentKind.text : DocumentKind → String
  | definition kind => kind.text
  | execution => "execution model"

inductive Document where
  | platform (content : Platform)
  | library (content : Library)
  | execution (content : Execution)
deriving DecidableEq, Repr, Inhabited

namespace Document

def kind : Document → DocumentKind
  | platform _ => .definition .platform
  | library _ => .definition .library
  | execution _ => .execution

def imports : Document → List ImportDeclaration
  | platform content => content.imports
  | library content => content.imports
  | execution content => content.imports

/-- Where the document comes from. -/
def location : Document → String
  | platform content => content.location
  | library content => content.location
  | execution content => content.location

/-- The same document at another location. -/
def relocate (location : String) : Document → Document
  | platform content => platform { content with location }
  | library content => library { content with location }
  | execution content => execution { content with location }

end Document

end CrossModel
