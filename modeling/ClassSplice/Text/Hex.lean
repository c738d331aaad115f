/-!
# Hexadecimal text

Bytes are shown with two lower-case digits each.
-/

namespace ClassSplice

/-- A string of bytes, as a class file holds it. -/
abbrev Bytes := List UInt8

/-- The hexadecimal digits of `n`, with zeros in front up to `width` digits. -/
def hexPadded (width n : Nat) : String :=
  let digits := Nat.toDigits 16 n
  String.ofList (List.replicate (width - digits.length) '0' ++ digits)

/-- The bytes one after the other, two digits each. -/
def Bytes.hex (bytes : Bytes) : String :=
  String.join (bytes.map fun b => hexPadded 2 b.toNat)

/-- The bytes as a list in brackets, such as `[b8, 00, 10]`. -/
def Bytes.listing (bytes : Bytes) : String :=
  "[" ++ ", ".intercalate (bytes.map fun b => hexPadded 2 b.toNat) ++ "]"

end ClassSplice
