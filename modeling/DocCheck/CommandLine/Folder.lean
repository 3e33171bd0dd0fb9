import DocCheck.Text.Basic

/-!
# Files

What a run can find under a path, and a folder that is held in memory. Paths are relative to the
folder and are resolved name by name, so every name but the last one has to be a folder.
-/

namespace DocCheck

/-- What stands under a path. -/
inductive FileEntry where
  | absent
  /-- Something other than a file, such as a folder. -/
  | notFile
  /-- A file that cannot be read, for the given reason. -/
  | unreadable (reason : Text)
  | content (bytes : ByteArray)

/-- A folder in memory: its entries by their path from the folder. -/
abbrev Folder := List (Text × FileEntry)

namespace Folder

/-- The names of a path. -/
def names (path : Text) : List Text := path.splitOn "/"

/-- What stands under the given names, which contain no dots. A path that leads to an entry is a
folder. -/
def entryAt (f : Folder) (path : List Text) : FileEntry :=
  if path.isEmpty then .notFile
  else
    match f.find? fun e => names e.1 = path with
    | some (_, entry) => entry
    | none => if f.any fun e => path.isPrefixOf (names e.1) then .notFile else .absent

/-- Follows names from a folder that is reached by `current`. -/
def resolve (f : Folder) (current : List Text) : List Text → FileEntry
  | [] => f.entryAt current
  | name :: rest =>
    match f.entryAt current with
    | .notFile =>
      if name.isEmpty || name = "." then f.resolve current rest
      else if name = ".." then
        if current.isEmpty then .notFile else f.resolve current.dropLast rest
      else f.resolve (current ++ [name]) rest
    | _ => .absent

/-- What stands under a path. A path from the root is outside the folder. -/
def lookup (f : Folder) (path : Text) : FileEntry :=
  if path.head? = some '/' then .absent else f.resolve [] (names path)

end Folder

end DocCheck
