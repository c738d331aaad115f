/-!
# Instruction widths

How many bytes an instruction takes, as far as its opcode tells.
-/

namespace ClassSplice

namespace Opcode

def iinc : UInt8 := 0x84

def invokeStatic : UInt8 := 0xb8

end Opcode

inductive InstructionWidth
  /-- The opcode and its operands take `bytes` bytes. -/
  | fixed (bytes : Nat)
  /-- The opcode widens the instruction behind it: six bytes for `iinc` and four for any other. -/
  | wide
  /-- The width depends on padding and operands, as for switches. -/
  | byOperands
  /-- No instruction has the opcode. -/
  | invalid
  deriving DecidableEq, Repr

namespace InstructionWidth

/-- The opcodes from `first` to `last`, with their width; opcodes in no row are invalid. -/
def rows : List (UInt8 × UInt8 × InstructionWidth) :=
  [(0x00, 0x0f, fixed 1), (0x10, 0x10, fixed 2), (0x11, 0x11, fixed 3), (0x12, 0x12, fixed 2),
    (0x13, 0x14, fixed 3), (0x15, 0x19, fixed 2), (0x1a, 0x35, fixed 1), (0x36, 0x3a, fixed 2),
    (0x3b, 0x83, fixed 1), (0x84, 0x84, fixed 3), (0x85, 0x98, fixed 1), (0x99, 0xa8, fixed 3),
    (0xa9, 0xa9, fixed 2), (0xaa, 0xab, byOperands), (0xac, 0xb1, fixed 1), (0xb2, 0xb8, fixed 3),
    (0xb9, 0xba, fixed 5), (0xbb, 0xbb, fixed 3), (0xbc, 0xbc, fixed 2), (0xbd, 0xbd, fixed 3),
    (0xbe, 0xbf, fixed 1), (0xc0, 0xc1, fixed 3), (0xc2, 0xc3, fixed 1), (0xc4, 0xc4, wide),
    (0xc5, 0xc5, fixed 4), (0xc6, 0xc7, fixed 3), (0xc8, 0xc9, fixed 5), (0xca, 0xca, fixed 1),
    (0xfe, 0xff, fixed 1)]

def ofOpcode (opcode : UInt8) : InstructionWidth :=
  match rows.find? fun r => r.1 ≤ opcode && opcode ≤ r.2.1 with
  | some r => r.2.2
  | none => invalid

end InstructionWidth

end ClassSplice
