/-!
# UTF-16 code units

A character outside the basic plane is a pair of units, a high and a low surrogate. `chars` joins
the pairs again and refuses a surrogate that stands alone.
-/

namespace ClassSplice.Utf16

def isHigh (u : UInt16) : Bool := 0xD800 ≤ u && u < 0xDC00

def isLow (u : UInt16) : Bool := 0xDC00 ≤ u && u < 0xE000

/-- The one or two units of a character. -/
def units (c : Char) : List UInt16 :=
  if c.toNat < 0x10000 then [UInt16.ofNat c.toNat]
  else
    let v := c.toNat - 0x10000
    [UInt16.ofNat (0xD800 + v / 0x400), UInt16.ofNat (0xDC00 + v % 0x400)]

/-- The character that a high and a low surrogate make up. -/
def pairChar (high low : UInt16) : Char :=
  Char.ofNat (0x10000 + (high.toNat - 0xD800) * 0x400 + (low.toNat - 0xDC00))

/-- Adds the characters of the units to those already `done`, which stand in reverse. -/
def charsAfter (done : List Char) : List UInt16 → Option (List Char)
  | [] => some done.reverse
  | u :: rest =>
    if isHigh u then
      match rest with
      | [] => none
      | v :: rest => if isLow v then charsAfter (pairChar u v :: done) rest else none
    else if isLow u then none
    else charsAfter (Char.ofNat u.toNat :: done) rest

/-- The characters of the units, unless some surrogate has no partner. -/
def chars (us : List UInt16) : Option (List Char) := charsAfter [] us

end ClassSplice.Utf16
