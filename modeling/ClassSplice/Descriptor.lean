import ClassSplice.Fault
import ClassSplice.Name

/-!
# Descriptors

The types of fields and methods in the compact form of class files. A field type is a number of
array dimensions over a primitive type or a class. Reading takes the longest front of the text that
is a type and leaves the rest.
-/

namespace ClassSplice

/-! ## Types -/

inductive Primitive
  | byte | char | double | float | int | long | short | boolean
  deriving DecidableEq, Repr

namespace Primitive

/-- The letter of the type in a descriptor. -/
def letter : Primitive → Char
  | byte => 'B' | char => 'C' | double => 'D' | float => 'F'
  | int => 'I' | long => 'J' | short => 'S' | boolean => 'Z'

/-- The keyword of the type in source text. -/
def keyword : Primitive → String
  | byte => "byte" | char => "char" | double => "double" | float => "float"
  | int => "int" | long => "long" | short => "short" | boolean => "boolean"

def ofLetter? : Char → Option Primitive
  | 'B' => some byte | 'C' => some char | 'D' => some double | 'F' => some float
  | 'I' => some int | 'J' => some long | 'S' => some short | 'Z' => some boolean
  | _ => none

end Primitive

/-- What an array type ends in once its dimensions are taken off. -/
inductive ElementType
  | primitive (type : Primitive)
  | object (name : ClassName)
  deriving DecidableEq

/-- The type of a field, a parameter or a result. -/
structure FieldType where
  dims : Nat
  element : ElementType
  deriving DecidableEq

/-- The parameters of a method and its result, which is absent for `void`. -/
structure MethodDescriptor where
  parameters : List FieldType
  result : Option FieldType
  deriving DecidableEq

/-! ## Faults -/

inductive DescriptorError
  | leftover (c : Char)
  | badPrimitive (c : Char)
  | missingPrimitive
  | missingType
  /-- A class name without its semicolon; `name` is what was read of it. -/
  | unterminated (name : String)
  | badClassName (cause : NameError)
  | badType (c : Char)
  | missingOpen
  | missingClose
  deriving DecidableEq, Repr

namespace DescriptorError

def message : DescriptorError → String
  | leftover c => "Unexpected leftover input '" ++ c.toString ++ "'"
  | badPrimitive c => "Invalid base type character '" ++ c.toString ++ "'"
  | missingPrimitive => "Missing base type character"
  | missingType => "Missing field type"
  | unterminated name => "Missing terminator for 'L" ++ name ++ "'"
  | badClassName cause => cause.message
  | badType c => "Invalid field type character '" ++ c.toString ++ "'"
  | missingOpen => "Expected '(' for method"
  | missingClose => "Missing ')' for method"

/-- Text that ends too early is told apart from text that is wrong. -/
def kind : DescriptorError → FaultKind
  | missingPrimitive | missingType | unterminated _ | missingClose => .unexpectedEof
  | _ => .invalidInput

end DescriptorError

/-- Reads the whole text with a reader of its front. -/
def readWhole {α : Type} (front : List Char → Except DescriptorError (α × List Char))
    (text : String) : Except DescriptorError α :=
  match front text.toList with
  | .error e => .error e
  | .ok (a, []) => .ok a
  | .ok (_, c :: _) => .error (.leftover c)

/-! ## Primitive types -/

namespace Primitive

def render (type : Primitive) : String := type.letter.toString

def front : List Char → Except DescriptorError (Primitive × List Char)
  | [] => .error .missingPrimitive
  | c :: rest =>
    match ofLetter? c with
    | some type => .ok (type, rest)
    | none => .error (.badPrimitive c)

def parse (text : String) : Except DescriptorError Primitive := readWhole front text

end Primitive

/-! ## Field types -/

namespace ElementType

def render : ElementType → String
  | primitive type => type.render
  | object name => "L" ++ name.text ++ ";"

/-- The type as source text writes it. -/
def sourceName : ElementType → String
  | primitive type => type.keyword
  | object name => name.dotted

/-- Reads a class name up to its semicolon. -/
def objectFront (cs : List Char) : Except DescriptorError (ElementType × List Char) :=
  let name := String.ofList (cs.takeWhile (· ≠ ';'))
  match cs.dropWhile (· ≠ ';') with
  | [] => .error (.unterminated name)
  | _ :: rest =>
    match ClassName.ofString name with
    | .error e => .error (.badClassName e)
    | .ok name => .ok (object name, rest)

def front : List Char → Except DescriptorError (ElementType × List Char)
  | [] => .error .missingType
  | 'L' :: rest => objectFront rest
  | c :: rest =>
    match Primitive.ofLetter? c with
    | some type => .ok (primitive type, rest)
    | none => .error (.badType c)

theorem objectFront_length_lt {cs rest : List Char} {type : ElementType}
    (h : objectFront cs = .ok (type, rest)) : rest.length < cs.length := by
  have hd : (cs.dropWhile (· ≠ ';')).length ≤ cs.length := (List.dropWhile_suffix _).length_le
  simp only [objectFront] at h
  split at h
  · simp at h
  · rename_i c r hr
    rw [hr] at hd
    split at h
    · simp at h
    · simp only [Except.ok.injEq, Prod.mk.injEq] at h
      simp only [List.length_cons] at hd
      rw [← h.2]
      omega

theorem front_length_lt {cs rest : List Char} {type : ElementType}
    (h : front cs = .ok (type, rest)) : rest.length < cs.length := by
  unfold front at h
  split at h
  · simp at h
  · exact Nat.lt_succ_of_lt (objectFront_length_lt h)
  · split at h
    · simp only [Except.ok.injEq, Prod.mk.injEq] at h
      simp [← h.2]
    · simp at h

end ElementType

namespace FieldType

def ofPrimitive (type : Primitive) : FieldType := ⟨0, .primitive type⟩

def int : FieldType := ofPrimitive .int

def long : FieldType := ofPrimitive .long

def float : FieldType := ofPrimitive .float

def object (name : ClassName) : FieldType := ⟨0, .object name⟩

/-- The type of arrays of `type`. -/
def array (type : FieldType) : FieldType := { type with dims := type.dims + 1 }

def render (type : FieldType) : String :=
  String.ofList (List.replicate type.dims '[') ++ type.element.render

/-- The type as source text writes it, such as `java.lang.String[]`. -/
def sourceName (type : FieldType) : String :=
  type.element.sourceName ++ String.join (List.replicate type.dims "[]")

def front (cs : List Char) : Except DescriptorError (FieldType × List Char) :=
  match ElementType.front (cs.dropWhile (· = '[')) with
  | .error e => .error e
  | .ok (element, rest) => .ok (⟨(cs.takeWhile (· = '[')).length, element⟩, rest)

def parse (text : String) : Except DescriptorError FieldType := readWhole front text

theorem front_length_lt {cs rest : List Char} {type : FieldType}
    (h : front cs = .ok (type, rest)) : rest.length < cs.length := by
  unfold front at h
  split at h
  · simp at h
  · rename_i element r hr
    simp only [Except.ok.injEq, Prod.mk.injEq] at h
    rw [← h.2]
    exact Nat.lt_of_lt_of_le (ElementType.front_length_lt hr) (List.dropWhile_suffix _).length_le

end FieldType

/-! ## Method descriptors -/

namespace MethodDescriptor

def render (d : MethodDescriptor) : String :=
  "(" ++ String.join (d.parameters.map FieldType.render) ++ ")" ++
    match d.result with
    | none => "V"
    | some type => type.render

/-- Reads types up to the closing parenthesis; those already `done` stand in reverse. -/
def parametersFront (done : List FieldType) (cs : List Char) :
    Except DescriptorError (List FieldType × List Char) :=
  match cs with
  | [] => .error .missingClose
  | c :: rest =>
    if c = ')' then .ok (done.reverse, rest)
    else
      match _h : FieldType.front (c :: rest) with
      | .error e => .error e
      | .ok (type, rest) => parametersFront (type :: done) rest
termination_by cs.length
decreasing_by exact FieldType.front_length_lt ‹_›

def resultFront : List Char → Except DescriptorError (Option FieldType × List Char)
  | 'V' :: rest => .ok (none, rest)
  | cs =>
    match FieldType.front cs with
    | .error e => .error e
    | .ok (type, rest) => .ok (some type, rest)

def front : List Char → Except DescriptorError (MethodDescriptor × List Char)
  | '(' :: rest => do
    let (parameters, rest) ← parametersFront [] rest
    let (result, rest) ← resultFront rest
    .ok (⟨parameters, result⟩, rest)
  | _ => .error .missingOpen

def parse (text : String) : Except DescriptorError MethodDescriptor := readWhole front text

end MethodDescriptor

end ClassSplice
