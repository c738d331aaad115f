import ClassSplice.ClassFault
import ClassSplice.Descriptor

/-!
# Constant pools

Constants addressed from slot 1 on. An index has sixteen bits, so the index of a constant pushed
beyond the last addressable slot wraps around.
-/

namespace ClassSplice

structure Pool where
  slots : Slots 1 Constant
  deriving DecidableEq

namespace Pool

def empty : Pool := ⟨Slots.empty⟩

instance : Inhabited Pool := ⟨empty⟩

/-- The number of slots, the reserved slot 0 included, as it is written. -/
def slotCount (pool : Pool) : UInt16 := UInt16.ofNat pool.slots.next

def size (pool : Pool) : Nat := pool.slots.size

def isEmpty (pool : Pool) : Bool := pool.slots.isEmpty

/-- The constants in order, each with its index. -/
def entries (pool : Pool) : List (PoolIndex × Constant) :=
  pool.slots.toList.map fun e => (UInt16.ofNat e.1, e.2)

/-! ## Adding constants -/

/-- The index that the next constant gets. -/
def nextIndex (pool : Pool) : PoolIndex := UInt16.ofNat pool.slots.next

def push (pool : Pool) (c : Constant) : PoolIndex × Pool :=
  (pool.nextIndex, ⟨pool.slots.push c⟩)

def ofList (cs : List Constant) : Pool := ⟨Slots.ofList cs⟩

def pushUtf8 (pool : Pool) (text : String) : PoolIndex × Pool := pool.push (.utf8 text)

/-- Adds a class behind the text of its internal name. -/
def pushClass (pool : Pool) (name : String) : PoolIndex × Pool :=
  let (text, pool) := pool.pushUtf8 name
  pool.push (.classRef text)

def pushNameAndType (pool : Pool) (name descriptor : String) : PoolIndex × Pool :=
  let (name, pool) := pool.pushUtf8 name
  let (descriptor, pool) := pool.pushUtf8 descriptor
  pool.push (.nameAndType name descriptor)

def pushMethodRef (pool : Pool) (owner : PoolIndex) (name descriptor : String)
    (onInterface : Bool) : PoolIndex × Pool :=
  let (nameAndType, pool) := pool.pushNameAndType name descriptor
  pool.push (.methodRef owner nameAndType onInterface)

def pushFieldRef (pool : Pool) (owner : PoolIndex) (name descriptor : String) :
    PoolIndex × Pool :=
  let (nameAndType, pool) := pool.pushNameAndType name descriptor
  pool.push (.fieldRef owner nameAndType)

/-! ## Looking constants up -/

def get (pool : Pool) (index : PoolIndex) : Except ClassFault Constant :=
  match pool.slots.get? index.toNat with
  | some c => .ok c
  | none => .error (.missingConstant index)

/-- The text of a text constant. -/
def utf8 (pool : Pool) (index : PoolIndex) : Except ClassFault String := do
  match ← pool.get index with
  | .utf8 text => .ok text
  | other => .error (.unexpectedConstant index .utf8 other.tag)

/-- The name of a class as it stands in the pool, such as `java/lang/String` or `[I`. -/
def internalName (pool : Pool) (index : PoolIndex) : Except ClassFault String := do
  match ← pool.get index with
  | .classRef name => pool.utf8 name
  | other => .error (.unexpectedConstant index .classRef other.tag)

/-- The name of a class as source text writes it, given its internal name. -/
def sourceNameOf (internal : String) : Except ClassFault String :=
  if internal.toList.head? = some '[' then
    match FieldType.parse internal with
    | .ok type => .ok type.sourceName
    | .error _ => .error (.badDescriptor internal)
  else .ok (ClassName.replaceChar '/' '.' internal)

/-- The name of a class as source text writes it, such as `java.lang.String` or `int[]`. -/
def className (pool : Pool) (index : PoolIndex) : Except ClassFault String := do
  sourceNameOf (← pool.internalName index)

/-- The texts of a name and a descriptor. -/
def nameAndType (pool : Pool) (index : PoolIndex) : Except ClassFault (String × String) := do
  match ← pool.get index with
  | .nameAndType name descriptor => .ok (← pool.utf8 name, ← pool.utf8 descriptor)
  | other => .error (.unexpectedConstant index .nameAndType other.tag)

/-! ## Comparison -/

/-- Equality with floating-point numbers compared as numbers. -/
def same (a b : Pool) : Bool :=
  a.size == b.size &&
    (a.slots.toList.zip b.slots.toList).all fun (x, y) => x.1 == y.1 && x.2.same y.2

/-! ## Layout -/

/-- Reads constants until they fill the slots below `count`. -/
def readSlots (count : Nat) (slots : Slots 1 Constant) (bytes : Bytes) :
    Except ReadError (Pool × Bytes) :=
  if slots.next < count then
    match Constant.layout.read bytes with
    | .error e => .error e
    | .ok (c, rest) => readSlots count (slots.push c) rest
  else if count < slots.next then .error .poolOverflow
  else .ok (⟨slots⟩, bytes)
termination_by count - slots.next
decreasing_by
  have := c.width_pos
  simp only [Slots.next_push]
  omega

/-- The slot count, then the constants without their indices. -/
def layout : Layout Pool where
  write pool := Layout.u16.write pool.slotCount ++
    pool.slots.toList.flatMap fun e => Constant.layout.write e.2
  read bytes :=
    match Layout.u16.read bytes with
    | .error e => .error e
    | .ok (count, rest) =>
      if count = 0 then .error .zeroPoolCount else readSlots count.toNat Slots.empty rest
  Fits pool := pool.slots.next < 0x10000 ∧ ∀ e ∈ pool.slots.toList, e.2.Fits

end Pool

end ClassSplice
