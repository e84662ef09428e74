import MonkeySyntax.Text.Quoted

namespace MonkeySyntax.CommandLine

/-! Why the input of the command could not be read. -/

inductive ReadFault where
  /-- A fault of the system, with its number, its name and its description. -/
  | system (code : Nat) (name description : String)
  /-- The bytes that were read are no text. -/
  | malformedText
deriving DecidableEq, Repr

namespace ReadFault

def notFound : ReadFault :=
  .system 2 "NotFound" "No such file or directory"

def permissionDenied : ReadFault :=
  .system 13 "PermissionDenied" "Permission denied"

def notDirectory : ReadFault :=
  .system 20 "NotADirectory" "Not a directory"

def isDirectory : ReadFault :=
  .system 21 "IsADirectory" "Is a directory"

def nameTooLong : ReadFault :=
  .system 36 "InvalidFilename" "File name too long"

def message : ReadFault → String
  | .system code name description =>
    "Os \x7b code: " ++ toString code ++ ", kind: " ++ name ++ ", message: " ++
      Text.quoteString description ++ " \x7d"
  | .malformedText =>
    "Error \x7b kind: InvalidData, message: " ++
      Text.quoteString "stream did not contain valid UTF-8" ++ " \x7d"

end ReadFault

/-! Paths of files: names between slashes.  An empty name and a single dot stay
in the folder that comes before them, two dots go up to its parent, and the root
is its own parent. -/

def pathSteps (path : String) : List String :=
  path.splitOn "/"

def pathNames (path : String) : List String :=
  (pathSteps path).filter fun step => step ≠ "" ∧ step ≠ "."

/-- The name by which a file is shown: the last name of its path, or the whole
path when that is none. -/
def fileName (path : String) : String :=
  match (pathNames path).getLast? with
  | none | some ".." => path
  | some name => name

/-- The names from the root to the folder in which a path starts. -/
def pathOrigin (working : List String) (path : String) : List String :=
  if path.startsWith "/" then [] else working

/-- The names from the root to the file of a path, if all its folders are there. -/
def namesFromRoot (working : List String) (path : String) : List String :=
  (pathNames path).foldl
    (fun names step => if step = ".." then names.dropLast else names ++ [step])
    (pathOrigin working path)

/-- The longest name in a path, in bytes. -/
def maxNameSize : Nat := 255

/-- The longest path, in bytes. -/
def maxPathSize : Nat := 4095

/-! A disk held in memory, so that the command can be run without a real one. -/

/-- The folders and the files, by their names from the root, and the folder in
which a path starts that begins with no slash.  The folders on the way to one
that is listed, or to a file, need not be listed. -/
structure Disk where
  folders : List (List String)
  files : List (List String × ByteArray)
  working : List String

namespace Disk

inductive Place where
  | folder (names : List String)
  | file (content : ByteArray)

def paths (disk : Disk) : List (List String) :=
  disk.working :: disk.folders ++ disk.files.map Prod.fst

def lookup (disk : Disk) (names : List String) : Except ReadFault Place :=
  match disk.files.lookup names with
  | some content => .ok (.file content)
  | none =>
    if disk.paths.any fun path => names.isPrefixOf path then .ok (.folder names)
    else .error .notFound

def step (disk : Disk) : Place → String → Except ReadFault Place
  | .file _, _ => .error .notDirectory
  | place, "" | place, "." => .ok place
  | .folder names, ".." => .ok (.folder names.dropLast)
  | .folder names, name =>
    if maxNameSize < name.utf8ByteSize then .error .nameTooLong
    else disk.lookup (names ++ [name])

def read (disk : Disk) (path : String) : Except ReadFault ByteArray :=
  if path = "" then
    .error .notFound
  else if maxPathSize < path.utf8ByteSize then
    .error .nameTooLong
  else do
    let start := Place.folder (pathOrigin disk.working path)
    match ← (pathSteps path).foldlM disk.step start with
    | .file content => return content
    | .folder _ => throw .isDirectory

def write (disk : Disk) (path : String) (content : ByteArray) : Disk :=
  { disk with files := (namesFromRoot disk.working path, content) :: disk.files }

end Disk

end MonkeySyntax.CommandLine
