import ExprLang.Text.Basic

/-!
# Directories

A directory holds files by their paths.  A file is looked up by walking along the parts of its name, which
slashes divide: an empty part and a single dot lead nowhere, two dots lead to the parent, and any other
part leads to the file or the directory of that name.  What lies outside of the directory is not known,
but for the fact that directories hold it.
-/

namespace ExprLang

/-- Why a file cannot be read. -/
inductive FileError where
  | missing
  | denied
  /-- A file stands in the place of a directory. -/
  | notDirectory
  /-- A directory stands in the place of a file. -/
  | isDirectory
  | nameTooLong
  | invalidName
  deriving DecidableEq

namespace FileError

/-- Whether the file could be opened, so that only reading it failed. -/
def isOpened : FileError → Bool
  | .isDirectory => true
  | _ => false

/-- What went wrong. -/
def reason : FileError → Text
  | .missing => utf8 "no such file or directory"
  | .denied => utf8 "permission denied"
  | .notDirectory => utf8 "not a directory"
  | .isDirectory => utf8 "is a directory"
  | .nameTooLong => utf8 "file name too long"
  | .invalidName => utf8 "invalid argument"

/-- What is said of a file that cannot be read. -/
def message (e : FileError) (name : Text) : Text :=
  utf8 (if e.isOpened then "read " else "open ") ++ name ++ utf8 ": " ++ e.reason

end FileError

/-- A directory: the text of each file by its path from the directory. -/
structure Directory where
  files : List (List Text × Text)
  deriving DecidableEq

namespace Directory

/-- The parts of a name. -/
def parts (name : Text) : List Text :=
  name.splitOn 0x2F

/-- The directory with the given files. -/
def ofFiles (files : List (Text × Text)) : Directory :=
  ⟨files.map fun (name, text) => (parts name, text)⟩

/-- Whether a path leads to a directory. -/
def isDirectory (d : Directory) (path : List Text) : Bool :=
  d.files.any fun (file, _) => path.isPrefixOf file && path != file

/-- Walks along the parts of a name from a path, or from outside of the directory. -/
def walk (d : Directory) : Option (List Text) → List Text → Except FileError Text
  | _, [] => .error .isDirectory
  | place, part :: rest =>
    if part = [] ∨ part = utf8 "." then d.walk place rest
    else if part = utf8 ".." then
      d.walk (match place with
        | some path => if path = [] then none else some path.dropLast
        | none => none) rest
    else if 255 < part.length then .error .nameTooLong
    else
      match place with
      | none => .error .missing
      | some path =>
        match d.files.lookup (path ++ [part]) with
        | some text => if rest = [] then .ok text else .error .notDirectory
        | none => if d.isDirectory (path ++ [part]) then d.walk (some (path ++ [part])) rest
          else .error .missing

/-- The text of the file of a given name. -/
def read (d : Directory) (name : Text) : Except FileError Text :=
  if name.contains 0 then .error .invalidName
  else if name = [] then .error .missing
  else if 4096 ≤ name.length then .error .nameTooLong
  else d.walk (if name.head? = some 0x2F then none else some []) (parts name)

end Directory

end ExprLang
