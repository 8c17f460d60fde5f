import Chip8.Text.Split

/-!
# Files

A program is a file as a whole, found by its path from the current folder. A
path goes down into folders part by part; `.` and empty parts stay where they
are and `..` goes back up.
-/

namespace Chip8

/-- A file with the parts of its path. -/
structure File where
  path : List String
  content : List UInt8

/-- The files below the current folder. -/
abbrev Folder := List File

/-- Why there is no content. -/
inductive FileError
  | notFound
  | isFolder
  /-- The path goes on below a file. -/
  | notFolder
  /-- The path has a zero character. -/
  | badName
  deriving DecidableEq, Repr

namespace Folder

/-- The parts of a path. -/
def parts (path : String) : List String :=
  (Text.splitAt '/' path.toList).map String.ofList

/-- The folder of named files. -/
def ofList (files : List (String × List UInt8)) : Folder :=
  files.map fun (name, content) => ⟨(parts name).filter (· != ""), content⟩

/-- The file at a path. -/
def file? (f : Folder) (path : List String) : Option File :=
  f.find? (·.path == path)

/-- Whether there is a folder at a path. -/
def isFolder (f : Folder) (path : List String) : Bool :=
  path.isEmpty || f.any fun file => path.length < file.path.length &&
    file.path.take path.length == path

/-- What is found outside the current folder: there are folders all the way up,
    and nothing else. -/
def outside (rest : List String) : FileError :=
  if rest.all fun part => part == "" || part == "." || part == ".." then .isFolder else .notFound

/-- What is found going from a place through the rest of a path. -/
def walk (f : Folder) (place : List String) : List String → Except FileError (List UInt8)
  | [] =>
    match f.file? place with
    | some file => .ok file.content
    | none => .error .isFolder
  | part :: rest =>
    if (f.file? place).isSome then .error .notFolder
    else if part = "" ∨ part = "." then f.walk place rest
    else if part = ".." then
      if place.isEmpty then .error (outside rest)
      else f.walk place.dropLast rest
    else
      let next := place ++ [part]
      if (f.file? next).isSome || f.isFolder next then f.walk next rest else .error .notFound

/-- The content of the file at a path. -/
def read (f : Folder) (path : String) : Except FileError (List UInt8) :=
  if path.toList.contains (Char.ofNat 0) then .error .badName
  else
    match parts path with
    | [""] => .error .notFound
    | "" :: rest => .error (outside rest)
    | others => f.walk [] others

end Folder

end Chip8
