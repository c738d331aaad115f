import ClassSplice.LineTable

/-!
# Method bodies
-/

namespace ClassSplice

/-- The code from `start` up to but not including `stop` is guarded by the code at `handler`. -/
structure ExceptionHandler where
  start : UInt16
  stop : UInt16
  handler : UInt16
  /-- The class of what is caught; zero catches everything. -/
  caught : PoolIndex
  deriving DecidableEq, Repr

structure Code where
  maxStack : UInt16
  maxLocals : UInt16
  bytecode : Bytes
  handlers : List ExceptionHandler
  attributes : List Attribute
  deriving DecidableEq, Repr

namespace ExceptionHandler

def layout : Layout ExceptionHandler :=
  (Layout.u16.pair (Layout.u16.pair (Layout.u16.pair Layout.u16))).imap
    (fun p => ⟨p.1, p.2.1, p.2.2.1, p.2.2.2⟩) fun h => (h.start, h.stop, h.handler, h.caught)

end ExceptionHandler

namespace Code

def layout : Layout Code :=
  (Layout.u16.pair (Layout.u16.pair (Layout.blob.pair
    (ExceptionHandler.layout.list.pair Attribute.layout.list)))).imap
    (fun p => ⟨p.1, p.2.1, p.2.2.1, p.2.2.2.1, p.2.2.2.2⟩)
    fun c => (c.maxStack, c.maxLocals, c.bytecode, c.handlers, c.attributes)

def form : BodyForm Code := ⟨"Code", layout⟩

/-- All line tables of the body, joined in order. -/
def lineTable (pool : Pool) (code : Code) : Except ClassFault LineTable := do
  let tables ← code.attributes.mapM (Attribute.decode LineTable.form pool)
  return ⟨tables.flatMap fun table => (table.map (·.entries)).getD []⟩

end Code

end ClassSplice
