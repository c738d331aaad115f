import ClassSplice.Instruction.Width
import ClassSplice.Text.Hex

/-!
# Walking through code

Code is cut into instructions from its start on. A walk ends with the code or at the first
instruction whose width cannot be told.
-/

namespace ClassSplice

/-- Why code cannot be walked to its end. -/
inductive ScanError
  | unsupportedWidth (opcode : UInt8) (offset : UInt16)
  | invalidOpcode (opcode : UInt8) (offset : UInt16)
  /-- The instruction at `offset` runs past the end of the code. -/
  | truncated (offset : UInt16)
  | codeTooLong (length : Nat)
  deriving DecidableEq, Repr

/-- The error with its parts named. -/
def ScanError.detail : ScanError → String
  | .unsupportedWidth opcode offset =>
    "UnsupportedOpcodeWidth \x7b opcode: " ++ toString opcode.toNat ++ ", offset: " ++
      toString offset.toNat ++ " \x7d"
  | .invalidOpcode opcode offset =>
    "InvalidOpcode \x7b opcode: " ++ toString opcode.toNat ++ ", offset: " ++
      toString offset.toNat ++ " \x7d"
  | .truncated offset => "Truncated \x7b offset: " ++ toString offset.toNat ++ " \x7d"
  | .codeTooLong length => "CodeTooLong(" ++ toString length ++ ")"

structure Instruction where
  offset : UInt16
  /-- The opcode and its operands. -/
  bytes : Bytes
  deriving DecidableEq, Repr

/-- The instructions met, and what stopped the walk before the end of the code. -/
structure Walk where
  instructions : List Instruction
  fault : Option ScanError
  deriving DecidableEq, Repr

namespace Walk

/-- The width of the instruction at `offset`. -/
def widthAt (offset : UInt16) (opcode : UInt8) (operands : Bytes) : Except ScanError Nat :=
  match InstructionWidth.ofOpcode opcode with
  | .fixed width => .ok width
  | .wide =>
    match operands with
    | [] => .error (.truncated offset)
    | widened :: _ => .ok (if widened = Opcode.iinc then 6 else 4)
  | .byOperands => .error (.unsupportedWidth opcode offset)
  | .invalid => .error (.invalidOpcode opcode offset)

/-- Walks through code that starts at `offset`; the instructions already `done` stand in reverse. -/
def after (done : List Instruction) (offset : Nat) (code : Bytes) : Walk :=
  match code with
  | [] => ⟨done.reverse, none⟩
  | opcode :: rest =>
    match widthAt (UInt16.ofNat offset) opcode rest with
    | .error e => ⟨done.reverse, some e⟩
    | .ok width =>
      let operands := rest.take (width - 1)
      if operands.length = width - 1 then
        after (⟨UInt16.ofNat offset, opcode :: operands⟩ :: done) (offset + width)
          (rest.drop (width - 1))
      else ⟨done.reverse, some (.truncated (UInt16.ofNat offset))⟩
termination_by code.length
decreasing_by simp only [List.length_drop, List.length_cons]; omega

/-- The walk through a whole code array, which has at most 65535 bytes. -/
def ofCode (code : Bytes) : Except ScanError Walk :=
  if code.length < 0x10000 then .ok (after [] 0 code) else .error (.codeTooLong code.length)

end Walk

end ClassSplice
