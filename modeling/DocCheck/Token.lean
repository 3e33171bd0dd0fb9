import DocCheck.Text.Basic

/-!
# Tokens

A tokenised source file is a list of tokens, each with a kind, its exact text and the line on
which it starts. Only the kinds that matter for finding documentation comments are told apart.
-/

namespace DocCheck

/-- The kinds of tokens. -/
inductive Kind where
  | openTag
  | closeTag
  | whitespace
  | comment
  | docComment
  | classWord
  | interfaceWord
  | traitWord
  | functionWord
  | abstractWord
  | finalWord
  | other
  deriving DecidableEq, Repr

namespace Kind

/-- Every kind, in the order in which they are listed to the user. -/
def all : List Kind :=
  [openTag, closeTag, whitespace, comment, docComment, classWord, interfaceWord, traitWord,
    functionWord, abstractWord, finalWord, other]

/-- The name of a kind in a token dump. -/
def name : Kind → Text
  | openTag => "open_tag"
  | closeTag => "close_tag"
  | whitespace => "whitespace"
  | comment => "comment"
  | docComment => "doc_comment"
  | classWord => "class"
  | interfaceWord => "interface"
  | traitWord => "trait"
  | functionWord => "function"
  | abstractWord => "abstract"
  | finalWord => "final"
  | other => "other"

/-- The kind with the given name. -/
def ofName? (t : Text) : Option Kind := all.find? (·.name = t)

/-- The keywords that introduce a class, an interface or a trait. -/
def isClassLike : Kind → Bool
  | classWord | interfaceWord | traitWord => true
  | _ => false

/-- No kind is left out of the list of kinds. -/
theorem mem_all (k : Kind) : k ∈ all := by cases k <;> decide

/-- A kind is found by its name. -/
theorem ofName?_name (k : Kind) : ofName? k.name = some k := by cases k <;> decide

end Kind

/-- A token: its kind, its exact text and the line on which it starts. -/
structure Token where
  kind : Kind
  text : Text
  line : Nat
  deriving DecidableEq, Repr

end DocCheck
