import ClassSplice.AccessFlags
import ClassSplice.Code

/-!
# Class files

A class file is read as a whole: bytes behind its end are refused. Writing gives back the bytes that
were read.
-/

namespace ClassSplice

/-! ## Versions -/

structure Version where
  major : UInt16
  minor : UInt16
  deriving DecidableEq, Repr

namespace Version

def java8 : Version := ⟨52, 0⟩

/-- Versions are ordered by their major number first. -/
def compare (a b : Version) : Ordering :=
  (Ord.compare a.major b.major).then (Ord.compare a.minor b.minor)

/-- The minor number is written first. -/
def layout : Layout Version :=
  (Layout.u16.pair Layout.u16).imap (fun p => ⟨p.2, p.1⟩) fun v => (v.minor, v.major)

end Version

/-! ## Fields and methods -/

/-- A field or a method. -/
structure Member (owner : FlagOwner) where
  flags : AccessFlags owner
  name : PoolIndex
  descriptor : PoolIndex
  attributes : List Attribute
  deriving DecidableEq, Repr

abbrev Field := Member .ofField

abbrev Method := Member .ofMethod

namespace Member

variable {owner : FlagOwner}

def layout : Layout (Member owner) :=
  (AccessFlags.layout.pair (Layout.u16.pair (Layout.u16.pair Attribute.layout.list))).imap
    (fun p => ⟨p.1, p.2.1, p.2.2.1, p.2.2.2⟩)
    fun m => (m.flags, m.name, m.descriptor, m.attributes)

def nameText (pool : Pool) (m : Member owner) : Except ClassFault String := pool.utf8 m.name

end Member

namespace Method

def methodDescriptor (pool : Pool) (m : Method) : Except ClassFault MethodDescriptor := do
  let text ← pool.utf8 m.descriptor
  match MethodDescriptor.parse text with
  | .ok d => .ok d
  | .error _ => .error (.badDescriptor text)

/-- The body of the method, which abstract and native methods lack. -/
def code (pool : Pool) (m : Method) : Except ClassFault (Option Code) :=
  m.attributes.findSomeM? (Attribute.decode Code.form pool)

end Method

/-! ## Classes -/

structure ClassFile where
  version : Version
  pool : Pool
  flags : AccessFlags .ofClass
  thisClass : PoolIndex
  /-- Zero only for the root of all classes. -/
  superClass : PoolIndex
  interfaces : List PoolIndex
  fields : List Field
  methods : List Method
  attributes : List Attribute
  deriving DecidableEq

namespace ClassFile

/-- The name of the class as source text writes it. -/
def name (c : ClassFile) : Except ClassFault String := c.pool.className c.thisClass

/-- Whether the name of a method can be read and is `name`. -/
def isNamed (c : ClassFile) (name : String) (m : Method) : Bool :=
  match m.nameText c.pool with
  | .ok found => found == name
  | .error _ => false

/-- The first method of that name. Methods whose names cannot be read are passed over. -/
def method? (c : ClassFile) (name : String) : Option Method := c.methods.find? (c.isNamed name)

/-- Equality with floating-point constants compared as numbers. -/
def same (a b : ClassFile) : Bool :=
  a.pool.same b.pool && decide ({ a with pool := .empty } = { b with pool := .empty })

/-! ## Layout -/

/-- The bytes that open every class file. -/
def magic : Bytes := [0xCA, 0xFE, 0xBA, 0xBE]

def magicLayout : Layout Unit where
  write _ := magic
  read
    | a :: b :: c :: d :: rest =>
      if [a, b, c, d] = magic then .ok ((), rest) else .error (.badMagic [a, b, c, d])
    | _ => .error .endOfInput
  Fits _ := True

def layout : Layout ClassFile :=
  (magicLayout.pair (Version.layout.pair (Pool.layout.pair (AccessFlags.layout.pair
    (Layout.u16.pair (Layout.u16.pair (Layout.u16.list.pair (Member.layout.list.pair
      (Member.layout.list.pair Attribute.layout.list))))))))).imap
    (fun (_, version, pool, flags, thisClass, superClass, interfaces, fields, methods,
        attributes) =>
      { version, pool, flags, thisClass, superClass, interfaces, fields, methods, attributes })
    fun c => ((), c.version, c.pool, c.flags, c.thisClass, c.superClass, c.interfaces, c.fields,
      c.methods, c.attributes)

def write (c : ClassFile) : Bytes := layout.write c

/-- Reads a class that takes up all the bytes. -/
def read (bytes : Bytes) : Except ReadError ClassFile :=
  match layout.read bytes with
  | .error e => .error e
  | .ok (c, []) => .ok c
  | .ok (_, _ :: _) => .error .trailingBytes

/-- The classes that the format has room for. -/
def Fits (c : ClassFile) : Prop := layout.Fits c

end ClassFile

end ClassSplice
