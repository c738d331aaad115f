import ClassSplice.Text.Hex
import ClassSplice.Text.Utf16

/-!
# Modified UTF-8

The text form of class files. Every UTF-16 code unit is a group of one, two or three bytes, so a
supplementary character takes two groups, and the zero unit is the two bytes `C0 80`. `decode`
refuses whatever `encode` would not write.
-/

namespace ClassSplice

/-- Why bytes are not modified UTF-8. -/
inductive TextError
  | nullByte
  | badContinuation (byte : UInt8)
  | truncated
  /-- A two-byte group for a unit that needs one byte. -/
  | overlongPair (unit : UInt16)
  /-- A three-byte group for a unit that needs fewer. -/
  | overlongTriple (unit : UInt16)
  | badLeading (byte : UInt8)
  | unpairedSurrogate
  deriving DecidableEq, Repr

def TextError.message : TextError → String
  | .nullByte => "Unexpected null byte"
  | .badContinuation b => "Invalid continuation byte 0x" ++ hexPadded 2 b.toNat
  | .truncated => "Truncated modified UTF-8 sequence"
  | .overlongPair u => "Overlong encoding of 0x" ++ hexPadded 2 u.toNat
  | .overlongTriple u => "Overlong encoding of 0x" ++ hexPadded 4 u.toNat
  | .badLeading b => "Invalid leading byte 0x" ++ hexPadded 2 b.toNat
  | .unpairedSurrogate => "Unpaired surrogate"

namespace ModifiedUtf8

/-! ## Writing -/

/-- The bytes of one code unit. -/
def group (u : UInt16) : Bytes :=
  let n := u.toNat
  if n ≠ 0 ∧ n < 0x80 then [UInt8.ofNat n]
  else if n < 0x800 then [UInt8.ofNat (0xC0 + n / 0x40), UInt8.ofNat (0x80 + n % 0x40)]
  else
    [UInt8.ofNat (0xE0 + n / 0x1000), UInt8.ofNat (0x80 + n / 0x40 % 0x40),
      UInt8.ofNat (0x80 + n % 0x40)]

def encode (text : String) : Bytes :=
  (text.toList.flatMap Utf16.units).flatMap group

/-! ## Reading -/

/-- The six bits that a continuation byte carries. -/
def continuation (b : UInt8) : Except TextError Nat :=
  if 0x80 ≤ b ∧ b < 0xC0 then .ok (b.toNat % 0x40) else .error (.badContinuation b)

/-- The unit of a two-byte group. -/
def pairUnit (a b : UInt8) : Except TextError UInt16 := do
  let y ← continuation b
  let unit := UInt16.ofNat (a.toNat % 0x20 * 0x40 + y)
  if unit ≠ 0 ∧ unit < 0x80 then .error (.overlongPair unit) else .ok unit

/-- The unit of a three-byte group. -/
def tripleUnit (a b c : UInt8) : Except TextError UInt16 := do
  let y ← continuation b
  let z ← continuation c
  let unit := UInt16.ofNat (a.toNat % 0x10 * 0x1000 + y * 0x40 + z)
  if unit < 0x800 then .error (.overlongTriple unit) else .ok unit

/-- Adds the units of the bytes to those already `done`, which stand in reverse. -/
def unitsAfter (done : List UInt16) : Bytes → Except TextError (List UInt16)
  | [] => .ok done.reverse
  | a :: rest =>
    if a = 0 then .error .nullByte
    else if a < 0x80 then unitsAfter (a.toUInt16 :: done) rest
    else if 0xC0 ≤ a ∧ a < 0xE0 then
      match rest with
      | [] => .error .truncated
      | b :: rest =>
        match pairUnit a b with
        | .error e => .error e
        | .ok u => unitsAfter (u :: done) rest
    else if 0xE0 ≤ a ∧ a < 0xF0 then
      match rest with
      | [] => .error .truncated
      | [b] =>
        match continuation b with
        | .error e => .error e
        | .ok _ => .error .truncated
      | b :: c :: rest =>
        match tripleUnit a b c with
        | .error e => .error e
        | .ok u => unitsAfter (u :: done) rest
    else .error (.badLeading a)

/-- The text that the bytes encode. -/
def decode (bytes : Bytes) : Except TextError String :=
  match unitsAfter [] bytes with
  | .error e => .error e
  | .ok us =>
    match Utf16.chars us with
    | none => .error .unpairedSurrogate
    | some cs => .ok (String.ofList cs)

end ModifiedUtf8

end ClassSplice
