/-!
# Files by name

A folder holds files under names that may lead through further folders. Looking a name up walks
along its parts, and each way in which the walk can fail has its own wording.
-/

namespace ExprFront.Cli

/-- Why a file cannot be read. -/
inductive FileFault where
  | missing
  | isFolder
  | notFolder
  | nameTooLong
  | other (reason : String)
  deriving DecidableEq

/-- The wording of a fault. -/
def FileFault.message : FileFault → String
  | .missing => "No such file or directory"
  | .isFolder => "Is a directory"
  | .notFolder => "Not a directory"
  | .nameTooLong => "File name too long"
  | .other reason => reason

/-- A folder: the bytes of each file, under the parts of its name. -/
abbrev Folder := List (List String × List UInt8)

namespace Folder

/-- The parts of a name. -/
def parts (name : String) : List String :=
  ((name.toList.splitOnP (· = '/')).map String.ofList)

/-- A folder with files under these names. -/
def ofFiles (files : List (String × List UInt8)) : Folder :=
  files.map fun (name, bytes) => (parts name, bytes)

/-- The bytes of a name and of a part of it that a file system accepts at most. -/
def longestName : Nat := 4095
def longestPart : Nat := 255

/-- Is there a folder at a place within the folder? -/
def hasFolder (folder : Folder) (place : List String) : Bool :=
  place.isEmpty || folder.any fun (path, _) => place.isPrefixOf path && place.length < path.length

/-- Walks along the parts of a name from a place; outside the folder nothing is known but that
there are folders above it. -/
def walk (folder : Folder) (place : Option (List String)) :
    List String → Except FileFault (List UInt8)
  | [] => .error .isFolder
  | part :: rest =>
    if part = "" ∨ part = "." then walk folder place rest
    else if longestPart < part.utf8ByteSize then .error .nameTooLong
    else
      match place with
      | none => if part = ".." then walk folder none rest else .error .missing
      | some path =>
        if part = ".." then
          walk folder (if path = [] then none else some path.dropLast) rest
        else
          let path := path ++ [part]
          match folder.lookup path with
          | some bytes => if rest = [] then .ok bytes else .error .notFolder
          | none => if folder.hasFolder path then walk folder (some path) rest else .error .missing

/-- The bytes of the file with a name. -/
def read (folder : Folder) (name : String) : Except FileFault (List UInt8) :=
  if longestName < name.utf8ByteSize then .error .nameTooLong
  else if name = "" then .error .missing
  else folder.walk (if name.startsWith "/" then none else some []) (parts name)

end Folder

end ExprFront.Cli
