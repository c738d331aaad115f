import ClassSplice.Layout

/-!
# Access flags

Sixteen bits, of which each kind of owner names some. Bits without a name are kept, so that writing
gives back what was read.
-/

namespace ClassSplice

/-- What carries the flags. -/
inductive FlagOwner
  | ofClass | ofMethod | ofField
  deriving DecidableEq, Repr

/-- The named bits, in the order in which they are shown. -/
def FlagOwner.names : FlagOwner → List (UInt16 × String)
  | .ofClass =>
    [(0x0001, "PUBLIC"), (0x0010, "FINAL"), (0x0020, "SUPER"), (0x0200, "INTERFACE"),
      (0x0400, "ABSTRACT"), (0x1000, "SYNTHETIC"), (0x2000, "ANNOTATION"), (0x4000, "ENUM"),
      (0x8000, "MODULE")]
  | .ofMethod =>
    [(0x0001, "PUBLIC"), (0x0002, "PRIVATE"), (0x0004, "PROTECTED"), (0x0008, "STATIC"),
      (0x0010, "FINAL"), (0x0020, "SYNCHRONIZED"), (0x0040, "BRIDGE"), (0x0080, "VARARGS"),
      (0x0100, "NATIVE"), (0x0400, "ABSTRACT"), (0x0800, "STRICT"), (0x1000, "SYNTHETIC")]
  | .ofField =>
    [(0x0001, "PUBLIC"), (0x0002, "PRIVATE"), (0x0004, "PROTECTED"), (0x0008, "STATIC"),
      (0x0010, "FINAL"), (0x0040, "VOLATILE"), (0x0080, "TRANSIENT"), (0x1000, "SYNTHETIC"),
      (0x4000, "ENUM")]

structure AccessFlags (owner : FlagOwner) where
  bits : UInt16
  deriving DecidableEq, Repr

namespace AccessFlags

variable {owner : FlagOwner}

/-- The bits that have a name. -/
def assigned (owner : FlagOwner) : UInt16 := owner.names.foldl (fun m f => m ||| f.1) 0

/-- The flags without the bits that have no name. -/
def named (flags : AccessFlags owner) : AccessFlags owner := ⟨flags.bits &&& assigned owner⟩

/-- Whether every bit of `wanted` is set. -/
def contains (flags wanted : AccessFlags owner) : Bool :=
  flags.bits &&& wanted.bits == wanted.bits

/-- The names of the flags that are set. -/
def listing (flags : AccessFlags owner) : String :=
  match owner.names.filter fun f => flags.bits &&& f.1 == f.1 with
  | [] => "(empty)"
  | set => " | ".intercalate (set.map (·.2))

/-- The names of the flags that are set, and all bits as a number. -/
def describe (flags : AccessFlags owner) : String :=
  flags.named.listing ++ " (0x" ++ hexPadded 4 flags.bits.toNat ++ ")"

def layout : Layout (AccessFlags owner) := Layout.u16.imap (⟨·⟩) (·.bits)

end AccessFlags

end ClassSplice
