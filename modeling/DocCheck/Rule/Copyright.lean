import DocCheck.Text.Basic

/-!
# Copyrights

A copyright is the word with its sign in brackets, then one year or a span of years, then a holder.
The separator of a span may be any character here, so that a wrong one can be reported. A text that
can be read both as a span and as a single year is a span.
-/

namespace DocCheck

/-- The years of a copyright. -/
inductive CopyrightYears where
  | single
  | span (first : Text) (separator : Char) (last : Text)
  deriving DecidableEq, Repr

namespace CopyrightYears

/-- Four digits at the start of a text, and the rest. -/
def year? (t : Text) : Option (Text × Text) :=
  if (t.take 4).length = 4 && (t.take 4).all Char.isDigit then some (t.take 4, t.drop 4) else none

/-- A space and the holder: some text on one line. -/
def isHolder : Text → Bool
  | ' ' :: holder => !holder.isEmpty && !holder.elem '\n'
  | _ => false

/-- A separator other than a line feed, a year and a holder. -/
def spanEnd? : Text → Option (Char × Text)
  | separator :: t =>
    match year? t with
    | some (last, t) => if separator ≠ '\n' && isHolder t then some (separator, last) else none
    | none => none
  | [] => none

/-- The years of a copyright, if it is well formed. As a regular expression this is
`^Copyright \(C\) ([0-9]{4})((.)([0-9]{4}))? (.+)$`, where `.` is any character but a line feed and
the span is taken where it can be. -/
def ofText? (t : Text) : Option CopyrightYears :=
  match (t.after? "Copyright (C) ").bind year? with
  | none => none
  | some (first, t) =>
    match spanEnd? t with
    | some (separator, last) => some (.span first separator last)
    | none => if isHolder t then some .single else none

end CopyrightYears

end DocCheck
