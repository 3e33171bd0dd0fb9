import DocCheck.Text.Basic

/-!
# The margin of a comment

Around the words of a documentation comment stand the opener `/**`, the closer and, on each
further line, some indentation and a star. Stripping takes these away and leaves one line of text
for each physical line. The blanks that follow a star stay, because columns are measured from it.
-/

namespace DocCheck.Margin

/-- What follows the opener; a first line without one stays as it is. -/
def dropOpener (line : Text) : Text :=
  (Text.after? (line.dropWhile isMargin) "/**").getD line

/-- A further line without its indentation and its star. -/
def dropStar (line : Text) : Text :=
  match line.dropWhile isMargin with
  | '*' :: rest => rest
  | rest => rest

/-- A last line without its closer. -/
def dropCloser (line : Text) : Text :=
  match line.trimEnd.reverse with
  | '/' :: '*' :: rest => rest.reverse
  | _ => line.trimEnd

/-- The lines of a comment, the last one without its closer. -/
def dropLastCloser : List Text → List Text
  | [] => []
  | [line] => [dropCloser line]
  | line :: lines => line :: dropLastCloser lines

/-- The lines of text of a comment, one for each physical line and without trailing blanks. -/
def strip (raw eol : Text) : List Text :=
  match dropLastCloser (raw.splitOn eol) with
  | [] => []
  | first :: rest => (dropOpener first).trimEnd :: rest.map fun line => (dropStar line).trimEnd

end DocCheck.Margin
