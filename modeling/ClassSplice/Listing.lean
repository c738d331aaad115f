import ClassSplice.CallSite

/-!
# Listing a method

One line for each instruction, with the source line in front where an entry of the line table starts
at that very instruction.
-/

namespace ClassSplice

/-- The text with blanks in front up to `width` characters. -/
def alignRight (width : Nat) (text : String) : String :=
  String.ofList (List.replicate (width - text.length) ' ') ++ text

/-- The instructions listed, and what stopped the walk. -/
structure Listing where
  lines : List String
  fault : Option ScanError
  deriving DecidableEq, Repr

inductive ListingError
  | methodNotFound (name : MemberName)
  | missingCode (name : MemberName)
  | malformed (cause : ClassFault)
  | unlistable (cause : ScanError)
  deriving DecidableEq

namespace Listing

/-- The line of one instruction. -/
def line (table : LineTable) (i : Instruction) : String :=
  let source := match table.lineStartingAt i.offset with
    | some line => toString line.toNat
    | none => ""
  alignRight 6 source ++ " " ++ alignRight 5 (toString i.offset.toNat) ++ ": " ++ i.bytes.listing

/-- Lists the first method of that name. -/
def ofMethod (name : MemberName) (c : ClassFile) : Except ListingError Listing := do
  let some method := c.method? name.text
    | .error (.methodNotFound name)
  let some code ← (method.code c.pool).mapError .malformed
    | .error (.missingCode name)
  let table ← (code.lineTable c.pool).mapError .malformed
  let walk ← (Walk.ofCode code.bytecode).mapError .unlistable
  return ⟨walk.instructions.map (line table), walk.fault⟩

end Listing

end ClassSplice
