/-!
# Names of members and classes

A member name is one segment, a class name is segments joined by slashes. A segment is not empty and
holds none of the characters `.`, `;`, `[` and `/`.
-/

namespace ClassSplice

/-- Why a text is not a name. -/
inductive NameError
  /-- A segment holds a character that no segment may hold. -/
  | illegalCharacter (segment : String)
  | emptySegment
  | emptyClassName
  deriving DecidableEq, Repr

def NameError.message : NameError → String
  | .illegalCharacter s => "Unqualified name '" ++ s ++ "' contains an illegal character"
  | .emptySegment => "Unqualified name '' is empty"
  | .emptyClassName => "Binary name '' is empty"

/-! ## Segments -/

def illegalInSegment (c : Char) : Bool := c = '.' || c = ';' || c = '[' || c = '/'

/-- The text between the slashes, from left to right. -/
def segments (cs : List Char) : List (List Char) :=
  cs.foldr (fun c ss => if c = '/' then [] :: ss else ss.modifyHead (c :: ·)) [[]]

/-- What is wrong with a segment, if anything. -/
def segmentError? (segment : List Char) : Option NameError :=
  if segment.any illegalInSegment then some (.illegalCharacter (String.ofList segment))
  else if segment.isEmpty then some .emptySegment
  else none

/-- What is wrong with a class name, if anything: the fault of its first bad segment. -/
def classNameError? (cs : List Char) : Option NameError :=
  if cs.isEmpty then some .emptyClassName
  else (segments cs).findSome? segmentError?

/-! ## Member names -/

/-- The name of a field or method. -/
structure MemberName where
  text : String
  valid : segmentError? text.toList = none
  deriving DecidableEq

def MemberName.ofString (text : String) : Except NameError MemberName :=
  match h : segmentError? text.toList with
  | some e => .error e
  | none => .ok ⟨text, h⟩

/-! ## Class names -/

/-- The name of a class in its internal form, such as `java/lang/String`. -/
structure ClassName where
  text : String
  valid : classNameError? text.toList = none
  deriving DecidableEq

namespace ClassName

def ofString (text : String) : Except NameError ClassName :=
  match h : classNameError? text.toList with
  | some e => .error e
  | none => .ok ⟨text, h⟩

/-- Every `old` character becomes `new`. -/
def replaceChar (old new : Char) (text : String) : String :=
  String.ofList (text.toList.map fun c => if c = old then new else c)

/-- Reads a name written with dots, such as `java.lang.String`. -/
def ofDotted (text : String) : Except NameError ClassName :=
  ofString (replaceChar '.' '/' text)

/-- The name written with dots. -/
def dotted (name : ClassName) : String := replaceChar '/' '.' name.text

/-- Where the class file lies below a root of the class path. -/
def filePath (name : ClassName) : String := name.text ++ ".class"

def object : ClassName := ⟨"java/lang/Object", by decide⟩

def string : ClassName := ⟨"java/lang/String", by decide⟩

end ClassName

end ClassSplice
