import TagLayers.Text

/-!
# Files

The content of a file as a text, and why a file cannot be read. A file has to hold UTF-8.

A directory is given by the paths of its files relative to it. A path is followed name by
name: `.` and empty names stay, `..` goes up, any other name must be a directory unless it is
the last. What lies outside of the directory is not known and counts as missing. Names and paths
have a greatest length.
-/

namespace TagLayers

/-- Why a file cannot be read. -/
inductive FileError where
  /-- There is no file of that path. -/
  | missing
  /-- The path names a directory. -/
  | isDirectory
  /-- The path goes on below a file. -/
  | notDirectory
  /-- The path or a name in it is too long. -/
  | tooLong
  /-- The file does not hold UTF-8. -/
  | notText
  /-- Another fault, with its wording. -/
  | other (wording : String)
deriving DecidableEq, Repr

namespace FileError

/-- The wording of an error. -/
def message : FileError → String
  | missing => "No such file or directory (os error 2)"
  | isDirectory => "Is a directory (os error 21)"
  | notDirectory => "Not a directory (os error 20)"
  | tooLong => "File name too long (os error 36)"
  | notText => "stream did not contain valid UTF-8"
  | other wording => wording

end FileError

/-- The text that bytes encode in UTF-8. -/
def Text.ofBytes (bytes : ByteArray) : Except FileError Text :=
  match String.fromUTF8? bytes with
  | some s => .ok s.toList
  | none => .error .notText

/-- The names of a path. -/
def pathNames (path : Text) : List Text := path.splitBy (fun a b => a != '/' && b != '/')

/-- A directory: its files by the names of their paths. -/
structure Directory where
  files : List (List Text × ByteArray)

namespace Directory

/-- Where following a path has led. -/
inductive Place where
  /-- A place within the directory: the names from its top, the last first. -/
  | within (names : List Text)
  /-- A directory above it. -/
  | above
  /-- The root of all directories. -/
  | root

/-- The greatest length of a name in bytes. -/
def maxName : Nat := 255

/-- The length in bytes that every path stays below. -/
def pathLimit : Nat := 4096

/-- The names divided by slashes; empty names are left out. -/
def names (path : String) : List Text :=
  (pathNames path.toList).filter fun name => name != ['/']

/-- A directory with files given by their paths. -/
def ofList (files : List (String × ByteArray)) : Directory :=
  ⟨files.map fun f => (names f.1, f.2)⟩

/-- The content of a file. -/
def file? (d : Directory) (path : List Text) : Option ByteArray :=
  (d.files.find? (·.1 == path)).map (·.2)

/-- A path is that of a directory when a file lies below it, or when it is the top. -/
def isDirectory (d : Directory) (path : List Text) : Bool :=
  path.isEmpty || d.files.any fun f => path.isPrefixOf f.1 && path.length < f.1.length

/-- Goes one name further, from a directory. -/
def Place.follow (d : Directory) (place : Place) (name : Text) : Except FileError Place :=
  let outside : Except FileError Place :=
    if name = ['.'] ∨ name = ['.', '.'] then .ok place
    else if maxName < name.byteLen then .error .tooLong
    else .error .missing
  match place with
  | .root => outside
  | .above => outside
  | .within here =>
      if (d.file? here.reverse).isSome then .error .notDirectory
      else if !d.isDirectory here.reverse then .error .missing
      else if name = ['.'] then .ok place
      else if name = ['.', '.'] then
        match here with
        | [] => .ok .above
        | _ :: up => .ok (.within up)
      else if maxName < name.byteLen then .error .tooLong
      else .ok (.within (name :: here))

/-- Reads the file of a path. -/
def read (d : Directory) (path : String) : Except FileError ByteArray := do
  if pathLimit ≤ path.utf8ByteSize then throw .tooLong
  let start := if path.toList.head? = some '/' then Place.root else .within []
  let steps := names path ++ if path.toList.getLast? = some '/' then [['.']] else []
  match ← steps.foldlM (Place.follow d) start with
  | .within here =>
      match d.file? here.reverse with
      | some bytes => return bytes
      | none => throw (if d.isDirectory here.reverse then .isDirectory else .missing)
  | _ => throw .isDirectory

end Directory

end TagLayers
