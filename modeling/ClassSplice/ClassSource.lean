import ClassSplice.ClassFile
import ClassSplice.FileTree

/-!
# Where classes come from

A store keeps the bytes of classes under their names, a class path finds them in files below a root.
Either way a class is read afresh each time it is loaded.
-/

namespace ClassSplice

inductive LoadError
  | notFound (name : ClassName)
  | unreachable (cause : PathFault)
  /-- There is a directory in the place of the file. -/
  | directory
  | malformed (cause : ReadError)
  deriving DecidableEq

/-- The fault that reading a directory gives. -/
def directoryFault : Fault := .system 21 .isADirectory "Is a directory"

/-- The error with its parts named. -/
def LoadError.detail : LoadError → String
  | .notFound name => "NotFound(" ++ name.text ++ ")"
  | .unreachable cause => "IoError(" ++ cause.fault.detail ++ ")"
  | .directory => "Malformed(IoError(" ++ directoryFault.detail ++ "))"
  | .malformed cause => "Malformed(IoError(" ++ cause.fault.detail ++ "))"

/-- Reads a class from its bytes. -/
def loadBytes (bytes : Bytes) : Except LoadError ClassFile :=
  (ClassFile.read bytes).mapError .malformed

/-! ## Stores -/

/-- The bytes of classes under their names, the newest first. -/
structure ClassStore where
  entries : List (ClassName × Bytes)
  deriving DecidableEq

/-- Why a class cannot be stored under its own name. -/
inductive OwnNameError
  | unreadable (cause : ClassFault)
  | badName (cause : NameError)
  deriving DecidableEq, Repr

namespace ClassStore

def empty : ClassStore := ⟨[]⟩

def bytes? (store : ClassStore) (name : ClassName) : Option Bytes :=
  store.entries.lookup name

def insert (store : ClassStore) (name : ClassName) (bytes : Bytes) : ClassStore :=
  ⟨(name, bytes) :: store.entries⟩

/-- Stores a class under its own name. -/
def insertClass (store : ClassStore) (c : ClassFile) :
    Except OwnNameError (ClassName × ClassStore) := do
  let dotted ← c.name.mapError .unreadable
  let name ← (ClassName.ofDotted dotted).mapError .badName
  return (name, store.insert name c.write)

def load (store : ClassStore) (name : ClassName) : Except LoadError ClassFile :=
  match store.bytes? name with
  | some bytes => loadBytes bytes
  | none => .error (.notFound name)

end ClassStore

/-! ## Class paths -/

/-- A directory that holds class files, each under the path of its name. -/
structure ClassPath where
  root : String
  deriving DecidableEq, Repr

namespace ClassPath

/-- The path of a class. An empty root adds nothing, and a root that ends in a slash no other. -/
def pathOf (classPath : ClassPath) (name : ClassName) : String :=
  match classPath.root.toList.getLast? with
  | none | some '/' => classPath.root ++ name.filePath
  | some _ => classPath.root ++ "/" ++ name.filePath

/-- The class, given what is found at its path. -/
def loadTarget (name : ClassName) : PathTarget → Except LoadError ClassFile
  | .file content => loadBytes content
  | .directory => .error .directory
  | .missing => .error (.notFound name)
  | .fault cause => .error (.unreachable cause)

def load (lookup : String → PathTarget) (classPath : ClassPath) (name : ClassName) :
    Except LoadError ClassFile :=
  loadTarget name (lookup (classPath.pathOf name))

end ClassPath

end ClassSplice
