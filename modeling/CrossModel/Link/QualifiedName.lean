import CrossModel.Link.ResolveError
import CrossModel.Log
import CrossModel.Text.Segments

/-!
# Qualified names

A provider is referred to as `Platform.Provider`: two non-empty parts with one dot between them.
Blanks around the whole do not count.
-/

namespace CrossModel

structure QualifiedName where
  platform : String
  provider : String
deriving DecidableEq, Repr, Inhabited

namespace QualifiedName

def text (name : QualifiedName) : String :=
  name.platform ++ "." ++ name.provider

def parse? (text : String) : Option QualifiedName :=
  match segmentsOf '.' (trimmed text) with
  | [platform, provider] =>
    if platform = "" || provider = "" then none else some ⟨platform, provider⟩
  | _ => none

def parse (text : String) : Except ResolveError QualifiedName :=
  match parse? text with
  | some name => .ok name
  | none => .error (.malformedName text)

/-- What parsing a text logs: a warning, if it is no qualified name. -/
def parseLog (text : String) : Log :=
  match parse? text with
  | some _ => []
  | none => [.warn ("Cannot compute a qualified name from '" ++ text ++ "'")]

end QualifiedName

end CrossModel
