import ClassSplice.Fault
import ClassSplice.Text.ModifiedUtf8

/-!
# Why bytes are not a structure

Every cause is either input that ends too early or data that no writer produces.
-/

namespace ClassSplice

inductive ReadError
  /-- The input ends inside a number. -/
  | endOfInput
  /-- The input ends inside a body of counted bytes. -/
  | shortBody (expected found : Nat)
  | badMagic (found : Bytes)
  | zeroPoolCount
  /-- A constant of two slots takes one slot more than the pool has. -/
  | poolOverflow
  | unknownTag (code : UInt8)
  | unknownHandleKind (code : UInt8)
  | badText (cause : TextError)
  /-- Bytes follow the end of the class. -/
  | trailingBytes
  deriving DecidableEq, Repr

namespace ReadError

def message : ReadError → String
  | endOfInput => "failed to fill whole buffer"
  | shortBody expected found =>
    "Expected " ++ toString expected ++ " bytes, found only " ++ toString found
  | badMagic found => "Bad class file magic " ++ found.listing
  | zeroPoolCount => "Constant pool count of zero leaves no room for the reserved slot 0"
  | poolOverflow => "Wide constant overflows the constant pool"
  | unknownTag code => "Unknown constant pool tag " ++ toString code.toNat
  | unknownHandleKind code => "Unknown method handle kind " ++ toString code.toNat
  | badText cause => cause.message
  | trailingBytes => "Unexpected bytes after the end of the class file"

def kind : ReadError → FaultKind
  | endOfInput | shortBody .. => .unexpectedEof
  | _ => .invalidData

def fault (e : ReadError) : Fault :=
  match e with
  | endOfInput => .simple e.kind e.message
  | _ => .custom e.kind e.message

end ReadError

end ClassSplice
