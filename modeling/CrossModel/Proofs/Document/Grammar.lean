import CrossModel.Document.Parser
import Mathlib.Computability.Language

/-!
# The grammar of documents

The documents that can be written, as languages over words. A word is what the grammar sees of a
token: its kind and its text, which matters for integers only. Juxtaposition is `*`, choice is `+`
and repetition is the star.

Conditions are the only recursive form. They are defined for each depth: in `unary depth` at most
`depth` of the marks `!` and `(` are open around any word.
-/

namespace CrossModel.Grammar

open scoped Computability

/-- A token without its place. -/
abbrev Word := TokenKind × String

/-- A set of phrases. -/
abbrev Form := Language Word

/-- Any one word of a kind. -/
def word (kind : TokenKind) : Form :=
  {phrase | ∃ text, phrase = [(kind, text)]}

def kw (keyword : Keyword) : Form := word (.keyword keyword)

def sym (mark : Symbol) : Form := word (.symbol mark)

def ident : Form := word .ident

def string : Form := word .string

/-- An integer that fits into a signed word of 64 bits. -/
def integer : Form :=
  {phrase | ∃ text, phrase = [(.integer, text)] ∧ Parser.decimal text.toList ≤ 2 ^ 63 - 1}

/-- A form that may be left out. -/
def opt (form : Form) : Form := 1 + form

/-- One or more of a form, with a mark between them. -/
def separatedBy (mark : Symbol) (form : Form) : Form := form * (sym mark * form)∗

def inBraces (form : Form) : Form := sym .openBrace * form * sym .closeBrace

def qualified : Form := separatedBy .dot ident

def parameters : Form :=
  sym .openParen * opt (separatedBy .comma ident) * sym .closeParen

def importForm : Form :=
  kw .importKw * (kw .platformKw + kw .libraryKw) * string * opt (kw .asKw * (ident + string))

/-! ## Platforms and libraries -/

def event : Form := kw .eventKw * ident * opt parameters

def provider : Form := kw .providerKw * ident * opt (inBraces event∗)

def platform : Form :=
  opt (kw .abstractKw) * kw .platformKw * ident * opt (kw .extendsKw * qualified) *
    opt (inBraces provider∗)

def samplePhrases : Form := kw .inputsKw * inBraces (opt (separatedBy .comma string))

def intent : Form :=
  kw .intentKw * ident * opt (kw .followsKw * qualified) * opt parameters *
    opt (inBraces (opt samplePhrases))

def library : Form := kw .libraryKw * ident * opt (inBraces (event + intent)∗)

/-! ## Conditions -/

def comparator : Form :=
  sym .equal + sym .notEqual + sym .less + sym .lessEqual + sym .greater + sym .greaterEqual

/-- An operand, where `group` is what can stand as a condition in parentheses. -/
def atom (group : Form) : Form :=
  kw .trueKw + kw .falseKw + string + integer + group + ident * opt (sym .dot * ident)

def comparison (group : Form) : Form := atom group * opt (comparator * atom group)

def conjunction (unary : Form) : Form := separatedBy .both unary

def disjunction (unary : Form) : Form := separatedBy .either (conjunction unary)

/-- A negation or a comparison with at most `depth` of the marks `!` and `(` open at once. -/
def unary : Nat → Form
  | 0 => comparison 0
  | depth + 1 =>
    sym .bang * unary depth +
      comparison (sym .openParen * disjunction (unary depth) * sym .closeParen)

def condition : Form := disjunction (unary 64)

/-! ## Execution models and documents -/

def transition : Form := sym .arrow * ident * opt (kw .whenKw * condition)

def executionMember : Form :=
  kw .useKw * kw .providerKw * qualified + kw .stateKw * ident +
    kw .onKw * qualified * inBraces transition∗

def document : Form := importForm∗ * (platform + library + executionMember∗)

end CrossModel.Grammar
