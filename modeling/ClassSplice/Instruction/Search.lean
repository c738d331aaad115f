import ClassSplice.Instruction.Walk

/-!
# Searching code for an instruction

An encoding is compared with whole instructions only, through a key of eight bytes. The search walks
the code to its end, so a fault anywhere in the code is the answer, even behind a match.
-/

namespace ClassSplice

/-- The bytes of one instruction that is searched for. -/
structure Encoding where
  bytes : Bytes
  deriving DecidableEq, Repr

namespace Encoding

/-- Up to eight bytes as one number. The zeros in front of shorter strings leave no trace. -/
def keyOf (bytes : Bytes) : Option UInt64 :=
  if bytes.length ≤ 8 then some (bytes.foldl (fun k b => k * 0x100 + b.toUInt64) 0) else none

def key (e : Encoding) : Option UInt64 := keyOf e.bytes

/-- Whether an instruction has these very bytes. -/
def accepts (e : Encoding) (bytes : Bytes) : Bool :=
  e.bytes.length == bytes.length && e.key.isSome && e.key == keyOf bytes

/-- The call of a static method through the method reference at `index`. -/
def invokeStatic (index : UInt16) : Encoding :=
  ⟨[Opcode.invokeStatic, UInt8.ofNat (index.toNat / 0x100), UInt8.ofNat index.toNat]⟩

end Encoding

/-- The offset of the last instruction that has one of the encodings. -/
def lastOccurrence (code : Bytes) (encodings : List Encoding) : Except ScanError (Option UInt16) :=
  match Walk.ofCode code with
  | .error e => .error e
  | .ok ⟨_, some e⟩ => .error e
  | .ok ⟨instructions, none⟩ =>
    .ok ((instructions.filter fun i => encodings.any (·.accepts i.bytes)).getLast?.map (·.offset))

end ClassSplice
