import DocCheck.Text.Uppercase

/-!
# Package names

A package name is written in words joined by underscores, such as `Foo_Bar`: no spaces, an ASCII
capital first, and no word that starts in lower case.
-/

namespace DocCheck

/-- Whether a name is made of capitalised words joined by underscores. -/
def isUnderscoreName (name : Text) : Bool :=
  !name.elem ' ' && name.head?.any Char.isUpper &&
    (name.splitOn "_").all fun word => !word.head?.any isLowercase

/-- A text without the underscores at its ends. -/
def trimUnderscores (t : Text) : Text :=
  ((t.dropWhile (· == '_')).reverse.dropWhile (· == '_')).reverse

/-- The name with underscores for spaces and every word capitalised. -/
def suggestUnderscoreName (name : Text) : Text :=
  let spaced : Text := name.map fun c => if c = ' ' then '_' else c
  trimUnderscores (Text.join "_" ((spaced.splitOn "_").map capitalize))

end DocCheck
