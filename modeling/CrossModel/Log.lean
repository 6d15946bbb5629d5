/-!
# Log lines

What a session tells its observers along the way.
-/

namespace CrossModel

inductive LogLevel where
  | info | warn | error
deriving DecidableEq, Repr, Inhabited

def LogLevel.text : LogLevel → String
  | info => "INFO"
  | warn => "WARN"
  | error => "ERROR"

structure LogLine where
  level : LogLevel
  message : String
deriving DecidableEq, Repr, Inhabited

namespace LogLine

def text (line : LogLine) : String :=
  line.level.text ++ " " ++ line.message

def info (message : String) : LogLine := ⟨.info, message⟩

def warn (message : String) : LogLine := ⟨.warn, message⟩

def error (message : String) : LogLine := ⟨.error, message⟩

end LogLine

/-- Log lines in the order in which they were written. -/
abbrev Log := List LogLine

end CrossModel
