import ClassSplice.Fault

/-!
# Directory trees

A tree of directories and files held in memory. A path is followed component by component from the
left, and the first component that cannot be passed decides the answer.
-/

namespace ClassSplice

/-- Why a path cannot be followed at all, apart from leading nowhere. -/
inductive PathFault
  | nulInName
  | nameTooLong
  | notADirectory
  | permissionDenied
  deriving DecidableEq, Repr

def PathFault.fault : PathFault → Fault
  | .nulInName => .simple .invalidInput "file name contained an unexpected NUL byte"
  | .nameTooLong => .system 36 .invalidFilename "File name too long"
  | .notADirectory => .system 20 .notADirectory "Not a directory"
  | .permissionDenied => .system 13 .permissionDenied "Permission denied"

/-- What is found at the end of a path. -/
inductive PathTarget
  | file (content : Bytes)
  | directory
  | missing
  | fault (cause : PathFault)
  deriving DecidableEq, Repr

/-- Files with their content, and directories, under their paths; the newest entry comes first. -/
structure FileTree where
  entries : List (List String × Option Bytes)

namespace FileTree

def empty : FileTree := ⟨[]⟩

def addFile (path : List String) (content : Bytes) (tree : FileTree) : FileTree :=
  ⟨(path, some content) :: tree.entries⟩

def addDirectory (path : List String) (tree : FileTree) : FileTree :=
  ⟨(path, none) :: tree.entries⟩

/-- What stands at a path. Whatever has something below it is a directory. -/
def target (tree : FileTree) (path : List String) : PathTarget :=
  match tree.entries.find? (·.1 == path) with
  | some (_, some content) => .file content
  | some (_, none) => .directory
  | none => if tree.entries.any (path.isPrefixOf ·.1) ∨ path = [] then .directory else .missing

/-- The longest name of a file, in bytes. -/
def maxName : Nat := 255

/-- Paths of this many bytes and more are refused. -/
def pathLimit : Nat := 4096

/-- Follows the components from what is found at `here`. -/
def follow (tree : FileTree) (here : List String) : List String → PathTarget
  | [] => tree.target here
  | name :: rest =>
    match tree.target here with
    | .file _ => .fault .notADirectory
    | .directory =>
      if name = "" ∨ name = "." then tree.follow here rest
      else if name = ".." then tree.follow here.dropLast rest
      else if maxName < name.utf8ByteSize then .fault .nameTooLong
      else tree.follow (here ++ [name]) rest
    | other => other

/-- Where a path starts: at the top if it begins with a slash, else at `current`. -/
def startOf (current : List String) (path : String) : List String :=
  if path.toList.head? = some '/' then [] else current

/-- Follows a path, which starts at `current` unless it begins with a slash. -/
def lookup (tree : FileTree) (current : List String) (path : String) : PathTarget :=
  if path.toList.contains '\x00' then .fault .nulInName
  else if pathLimit ≤ path.utf8ByteSize then .fault .nameTooLong
  else if path.isEmpty then .missing
  else tree.follow (startOf current path) (path.splitOn "/")

/-! ## Writing -/

/-- Follows the components from `here` and makes the directories that are missing; gives the place
where they end. -/
def makeWay (tree : FileTree) (here : List String) : List String → List String × FileTree
  | [] => (here, tree)
  | name :: rest =>
    if name = "" ∨ name = "." then tree.makeWay here rest
    else if name = ".." then tree.makeWay here.dropLast rest
    else
      let next := here ++ [name]
      (if tree.target next = .missing then tree.addDirectory next else tree).makeWay next rest

/-- Makes the directory at a path and those on the way to it. -/
def writeDirectory (tree : FileTree) (current : List String) (path : String) : FileTree :=
  (tree.makeWay (startOf current path) (path.splitOn "/")).2

/-- Writes the file at a path and makes the directories on the way to it. -/
def writeFile (tree : FileTree) (current : List String) (path : String) (content : Bytes) :
    FileTree :=
  let names := path.splitOn "/"
  let (here, tree) := tree.makeWay (startOf current path) names.dropLast
  tree.addFile (here ++ names.getLast?.toList) content

end FileTree

end ClassSplice
