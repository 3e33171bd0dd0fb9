import DocCheck.Decimal.Shortest
import DocCheck.Text.Quoted

/-!
# Why a JSON text is refused

Reading a JSON text as a value of a given form can fail in three ways: the text ends too early, it
is not JSON, or it is JSON of another form than the wanted one.
-/

namespace DocCheck.Json

/-- A value that was met where another one was wanted. -/
inductive Found where
  | null
  | boolean (value : Bool)
  | natural (value : Nat)
  | negative (magnitude : Nat)
  | real (isNegative : Bool) (magnitude : Binary64)
  | string (value : Text)
  | sequence
  | map
  deriving DecidableEq, Repr

/-- How a JSON text can differ in form from what is wanted. -/
inductive Mismatch where
  | missingField (name : Text)
  | duplicateField (name : Text)
  | unknownName (name : Text) (known : List Text)
  | wrongType (found : Found) (wanted : Text)
  | wrongValue (found : Found) (wanted : Text)
  | wrongLength (length : Nat) (wanted : Text)
  deriving DecidableEq, Repr

/-- Why a text is refused. -/
inductive Fault where
  /-- The text ends too early. -/
  | ended
  /-- The text is not JSON. -/
  | malformed
  | mismatch (mismatch : Mismatch)
  deriving DecidableEq, Repr

/-- A text between backquotes. -/
def backquoted (t : Text) : Text := "\x60" ++ t ++ "\x60"

/-- The wording of a value in a message. -/
def Found.text : Found → Text
  | null => "null"
  | boolean true => "boolean " ++ backquoted "true"
  | boolean false => "boolean " ++ backquoted "false"
  | natural n => "integer " ++ backquoted (Text.ofNat n)
  | negative n => "integer " ++ backquoted ("-" ++ Text.ofNat n)
  | real isNegative x =>
    "floating point " ++ backquoted ((if isNegative then "-" else "" : Text) ++ x.text)
  | string t => "string " ++ quote t
  | sequence => "sequence"
  | map => "map"

/-- The wording of a mismatch. -/
def Mismatch.message : Mismatch → Text
  | missingField name => "missing field " ++ backquoted name
  | duplicateField name => "duplicate field " ++ backquoted name
  | unknownName name known =>
    "unknown variant " ++ backquoted name ++ ", expected one of " ++
      Text.join ", " (known.map backquoted)
  | wrongType found wanted => "invalid type: " ++ found.text ++ ", expected " ++ wanted
  | wrongValue found wanted => "invalid value: " ++ found.text ++ ", expected " ++ wanted
  | wrongLength length wanted =>
    "invalid length " ++ Text.ofNat length ++ ", expected " ++ wanted

end DocCheck.Json
