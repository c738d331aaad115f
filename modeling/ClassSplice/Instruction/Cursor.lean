import ClassSplice.Instruction.Walk

/-!
# Reading code one instruction at a time

A cursor hands out the instructions of code one by one. When it cannot read on it says why, once,
and from then on it hands out nothing.
-/

namespace ClassSplice

structure Cursor where
  code : Bytes
  offset : Nat
  failed : Bool
  deriving DecidableEq, Repr

namespace Cursor

/-- The cursor in front of a whole code array, which has at most 65535 bytes. -/
def ofCode (code : Bytes) : Except ScanError Cursor :=
  if code.length < 0x10000 then .ok ⟨code, 0, false⟩ else .error (.codeTooLong code.length)

def instructionAt (offset : UInt16) (opcode : UInt8) (operands : Bytes) : Except ScanError Bytes :=
  match Walk.widthAt offset opcode operands with
  | .error e => .error e
  | .ok width =>
    if width ≤ operands.length + 1 then .ok ((opcode :: operands).take width)
    else .error (.truncated offset)

/-- What the cursor hands out next, and the cursor behind it. -/
def next (c : Cursor) : Option (Except ScanError Instruction) × Cursor :=
  if c.failed then (none, c)
  else
    match c.code.drop c.offset with
    | [] => (none, c)
    | opcode :: operands =>
      match instructionAt (UInt16.ofNat c.offset) opcode operands with
      | .ok bytes =>
        (some (.ok ⟨UInt16.ofNat c.offset, bytes⟩), { c with offset := c.offset + bytes.length })
      | .error e => (some (.error e), { c with failed := true })

/-- What the cursor hands out after `n` times. -/
def handOut (c : Cursor) : Nat → Option (Except ScanError Instruction)
  | 0 => c.next.1
  | n + 1 => c.next.2.handOut n

end Cursor

end ClassSplice
