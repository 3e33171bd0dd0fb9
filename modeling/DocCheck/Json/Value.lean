import DocCheck.Text.Basic

/-!
# JSON values and their text

The values that the library writes, and their text: two spaces of indentation for each level, one
member or element on each line, and empty lists and objects on one line.
-/

namespace DocCheck

/-- A JSON value without fractions and negative numbers. -/
inductive Json where
  | null
  | bool (value : Bool)
  | number (value : Nat)
  | string (value : Text)
  | list (elements : List Json)
  | object (members : List (Text × Json))

namespace Json

/-- The digits of a number below 256 in base sixteen, always two of them. -/
def hexByte (n : Nat) : Text := [Nat.digitChar (n / 16), Nat.digitChar (n % 16)]

/-- A character inside a JSON string. -/
def escapeChar : Char → Text
  | '"' => "\\\""
  | '\\' => "\\\\"
  | '\n' => "\\n"
  | '\r' => "\\r"
  | '\t' => "\\t"
  | '\x08' => "\\b"
  | '\x0c' => "\\f"
  | c => if c.toNat < 0x20 then "\\u00" ++ hexByte c.toNat else [c]

/-- A JSON string. -/
def stringText (t : Text) : Text := "\"" ++ t.flatMap escapeChar ++ "\""

/-- A line end and the indentation of a level. -/
def newline (level : Nat) : Text := '\n' :: List.replicate (2 * level) ' '

/-- Items on lines of their own between two brackets. -/
def bracketed (opening closing : Char) (level : Nat) : List Text → Text
  | [] => [opening, closing]
  | items =>
    opening :: Text.join "," (items.map (newline (level + 1) ++ ·)) ++ newline level ++ [closing]

mutual

/-- The text of a value at a level of indentation. -/
def textAt (level : Nat) : Json → Text
  | null => "null"
  | bool true => "true"
  | bool false => "false"
  | number n => Text.ofNat n
  | string t => stringText t
  | list elements => bracketed '[' ']' level (elementTexts (level + 1) elements)
  | object members => bracketed '\x7b' '\x7d' level (memberTexts (level + 1) members)

/-- The texts of the elements of a list. -/
def elementTexts (level : Nat) : List Json → List Text
  | [] => []
  | v :: rest => textAt level v :: elementTexts level rest

/-- The texts of the members of an object. -/
def memberTexts (level : Nat) : List (Text × Json) → List Text
  | [] => []
  | (key, v) :: rest => (stringText key ++ ": " ++ textAt level v) :: memberTexts level rest

end

/-- The text of a value. -/
def text (v : Json) : Text := textAt 0 v

end Json

end DocCheck
