import BoardFlash.IoError
import BoardFlash.Text.Utf8

/-!
# Files in a folder

The folder in which the program works, as a value: its files and its
subfolders, which are empty. `Folder.read` finds a file by a path, that may
lead through `.` and `..` and out of the folder; out there is nothing that
can be read.
-/

namespace BoardFlash

namespace Folder

inductive Entry where
  | file (bytes : List UInt8)
  | subfolder
  deriving DecidableEq

end Folder

structure Folder where
  entries : List (String × Folder.Entry) := []
  deriving DecidableEq

namespace Folder

/-- How far a path has led. -/
inductive Place where
  | here
  | subfolder
  | outside
  | file (bytes : List UInt8)
  deriving DecidableEq

/-- The most bytes in one part of a path. -/
def maxNameBytes : Nat := 255

/-- The most bytes in a path. -/
def maxPathBytes : Nat := 4095

/-- One part of a path leads from a place to another. An empty part stays
where it is, but only in a folder. -/
def enter (f : Folder) (place : Place) (part : String) : Except IoError Place :=
  match place with
  | .file _ => .error .notDirectory
  | _ =>
    if part = "" ∨ part = "." then .ok place
    else if part = ".." then
      .ok (match place with
        | .subfolder => .here
        | _ => .outside)
    else if maxNameBytes < part.utf8ByteSize then .error .nameTooLong
    else
      match place, f.entries.lookup part with
      | .here, some (.file bytes) => .ok (.file bytes)
      | .here, some .subfolder => .ok .subfolder
      | _, _ => .error .noSuchFile

def walk (f : Folder) (place : Place) : List String → Except IoError Place
  | [] => .ok place
  | part :: rest =>
    match f.enter place part with
    | .ok place => walk f place rest
    | .error e => .error e

/-- The bytes of the file at the path. -/
def read (f : Folder) (path : String) : Except IoError (List UInt8) :=
  if path.toList.contains (Char.ofNat 0) then .error .nulInName
  else if path = "" then .error .noSuchFile
  else if maxPathBytes < path.utf8ByteSize then .error .nameTooLong
  else
    match f.walk (if path.startsWith "/" then .outside else .here) (path.splitOn "/") with
    | .error e => .error e
    | .ok (.file bytes) => .ok bytes
    | .ok _ => .error .isDirectory

/-- The text of the file at the path. -/
def readText (f : Folder) (path : String) : Except IoError (List Char) :=
  match f.read path with
  | .error e => .error e
  | .ok bytes =>
    match Utf8.decode? bytes with
    | some text => .ok text
    | none => .error .notText

end Folder

end BoardFlash
