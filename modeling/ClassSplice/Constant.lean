import ClassSplice.Layout
import ClassSplice.Slots

/-!
# Constants

The entries of a constant pool. Numbers in floating point are kept as bit patterns; `Constant.same`
compares them as numbers.
-/

namespace ClassSplice

/-- The place of a constant in the pool. -/
abbrev PoolIndex := UInt16

/-! ## Method handles -/

/-- What a method handle does with its member. -/
inductive HandleKind
  | getField | getStatic | putField | putStatic | invokeVirtual | invokeStatic | invokeSpecial
  | newInvokeSpecial | invokeInterface
  deriving DecidableEq, Repr

namespace HandleKind

def code : HandleKind → UInt8
  | getField => 1 | getStatic => 2 | putField => 3 | putStatic => 4 | invokeVirtual => 5
  | invokeStatic => 6 | invokeSpecial => 7 | newInvokeSpecial => 8 | invokeInterface => 9

def all : List HandleKind :=
  [getField, getStatic, putField, putStatic, invokeVirtual, invokeStatic, invokeSpecial,
    newInvokeSpecial, invokeInterface]

def ofCode? (code : UInt8) : Option HandleKind := all.find? (·.code == code)

def layout : Layout HandleKind where
  write kind := [kind.code]
  read
    | c :: rest =>
      match ofCode? c with
      | some kind => .ok (kind, rest)
      | none => .error (.unknownHandleKind c)
    | [] => .error .endOfInput
  Fits _ := True

end HandleKind

/-! ## Tags -/

inductive Tag
  | utf8 | integer | float | long | double | classRef | string | fieldRef | methodRef
  | interfaceMethodRef | nameAndType | methodHandle | methodType | dynamic | invokeDynamic
  | moduleRef | packageRef
  deriving DecidableEq, Repr

namespace Tag

def code : Tag → UInt8
  | utf8 => 1 | integer => 3 | float => 4 | long => 5 | double => 6 | classRef => 7 | string => 8
  | fieldRef => 9 | methodRef => 10 | interfaceMethodRef => 11 | nameAndType => 12
  | methodHandle => 15 | methodType => 16 | dynamic => 17 | invokeDynamic => 18 | moduleRef => 19
  | packageRef => 20

def name : Tag → String
  | utf8 => "Utf8" | integer => "Integer" | float => "Float" | long => "Long"
  | double => "Double" | classRef => "Class" | string => "String" | fieldRef => "Fieldref"
  | methodRef => "Methodref" | interfaceMethodRef => "InterfaceMethodref"
  | nameAndType => "NameAndType" | methodHandle => "MethodHandle" | methodType => "MethodType"
  | dynamic => "Dynamic" | invokeDynamic => "InvokeDynamic" | moduleRef => "Module"
  | packageRef => "Package"

def all : List Tag :=
  [utf8, integer, float, long, double, classRef, string, fieldRef, methodRef, interfaceMethodRef,
    nameAndType, methodHandle, methodType, dynamic, invokeDynamic, moduleRef, packageRef]

def ofCode? (code : UInt8) : Option Tag := all.find? (·.code == code)

end Tag

/-! ## Constants -/

inductive Constant
  | utf8 (text : String)
  | integer (value : Int32)
  | float (bits : UInt32)
  | long (value : Int64)
  | double (bits : UInt64)
  | classRef (name : PoolIndex)
  | string (text : PoolIndex)
  | fieldRef (owner nameAndType : PoolIndex)
  | methodRef (owner nameAndType : PoolIndex) (onInterface : Bool)
  | nameAndType (name descriptor : PoolIndex)
  | methodHandle (kind : HandleKind) (member : PoolIndex)
  | methodType (descriptor : PoolIndex)
  | dynamic (bootstrap : UInt16) (nameAndType : PoolIndex)
  | invokeDynamic (bootstrap : UInt16) (nameAndType : PoolIndex)
  | moduleRef (name : PoolIndex)
  | packageRef (name : PoolIndex)
  deriving DecidableEq, Repr

namespace Constant

def tag : Constant → Tag
  | utf8 _ => .utf8
  | integer _ => .integer
  | float _ => .float
  | long _ => .long
  | double _ => .double
  | classRef _ => .classRef
  | string _ => .string
  | fieldRef .. => .fieldRef
  | methodRef _ _ false => .methodRef
  | methodRef _ _ true => .interfaceMethodRef
  | nameAndType .. => .nameAndType
  | methodHandle .. => .methodHandle
  | methodType _ => .methodType
  | dynamic .. => .dynamic
  | invokeDynamic .. => .invokeDynamic
  | moduleRef _ => .moduleRef
  | packageRef _ => .packageRef

/-- Eight-byte numbers take two slots of the pool, the second of which nothing can refer to. -/
instance : Width Constant where
  width
    | long _ | double _ => 2
    | _ => 1

theorem width_pos (c : Constant) : 0 < width c := by
  cases c <;> simp [width]

/-- The class that a reference to a field or method names. -/
def owner? : Constant → Option PoolIndex
  | fieldRef owner _ => some owner
  | methodRef owner _ _ => some owner
  | _ => none

/-! ## Comparison as numbers -/

/-- Whether two bit patterns in single precision are equal numbers. -/
def sameSingle (a b : UInt32) : Bool :=
  let magnitude (x : UInt32) := x &&& 0x7FFFFFFF
  let isNaN (x : UInt32) := 0x7F800000 < magnitude x
  !isNaN a && !isNaN b && (a == b || magnitude a == 0 && magnitude b == 0)

/-- Whether two bit patterns in double precision are equal numbers. -/
def sameDouble (a b : UInt64) : Bool :=
  let magnitude (x : UInt64) := x &&& 0x7FFFFFFFFFFFFFFF
  let isNaN (x : UInt64) := 0x7FF0000000000000 < magnitude x
  !isNaN a && !isNaN b && (a == b || magnitude a == 0 && magnitude b == 0)

/-- Equality with floating-point numbers compared as numbers: no NaN is equal to itself, and the two
zeros are equal. -/
def same : Constant → Constant → Bool
  | float a, float b => sameSingle a b
  | double a, double b => sameDouble a b
  | a, b => a == b

/-! ## Layout -/

/-- What follows the tag. -/
def writeBody : Constant → Bytes
  | utf8 text => Layout.text.write text
  | integer value => Layout.i32.write value
  | float bits => Layout.u32.write bits
  | long value => Layout.i64.write value
  | double bits => Layout.u64.write bits
  | classRef i | string i | methodType i | moduleRef i | packageRef i => Layout.u16.write i
  | fieldRef i j | methodRef i j _ | nameAndType i j | dynamic i j | invokeDynamic i j =>
    (Layout.u16.pair Layout.u16).write (i, j)
  | methodHandle kind member => (HandleKind.layout.pair Layout.u16).write (kind, member)

/-- Reads with a layout what the arguments of a constant are made of. -/
def readWith {α : Type} (layout : Layout α) (make : α → Constant) (bytes : Bytes) :
    Except ReadError (Constant × Bytes) :=
  match layout.read bytes with
  | .error e => .error e
  | .ok (a, rest) => .ok (make a, rest)

/-- Reads what follows a tag. -/
def readBody : Tag → Bytes → Except ReadError (Constant × Bytes)
  | .utf8 => readWith Layout.text utf8
  | .integer => readWith Layout.i32 integer
  | .float => readWith Layout.u32 float
  | .long => readWith Layout.i64 long
  | .double => readWith Layout.u64 double
  | .classRef => readWith Layout.u16 classRef
  | .string => readWith Layout.u16 string
  | .fieldRef => readPair fieldRef
  | .methodRef => readPair (methodRef · · false)
  | .interfaceMethodRef => readPair (methodRef · · true)
  | .nameAndType => readPair nameAndType
  | .methodHandle => readWith (HandleKind.layout.pair Layout.u16) fun p => methodHandle p.1 p.2
  | .methodType => readWith Layout.u16 methodType
  | .dynamic => readPair dynamic
  | .invokeDynamic => readPair invokeDynamic
  | .moduleRef => readWith Layout.u16 moduleRef
  | .packageRef => readWith Layout.u16 packageRef
where
  /-- Reads two numbers of two bytes. -/
  readPair (make : UInt16 → UInt16 → Constant) :=
    readWith (Layout.u16.pair Layout.u16) fun p => make p.1 p.2

/-- Text must fit its two-byte length; every other constant has a fixed size. -/
def Fits : Constant → Prop
  | utf8 text => Layout.text.Fits text
  | _ => True

def layout : Layout Constant where
  write c := c.tag.code :: c.writeBody
  read
    | code :: rest =>
      match Tag.ofCode? code with
      | some tag => readBody tag rest
      | none => .error (.unknownTag code)
    | [] => .error .endOfInput
  Fits := Fits

end Constant

end ClassSplice
