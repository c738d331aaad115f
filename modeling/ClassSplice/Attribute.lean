import ClassSplice.Pool

/-!
# Attributes

A named body of bytes. A body is decoded only on request, with the form that belongs to its name, so
attributes of other names are kept as they are.
-/

namespace ClassSplice

structure Attribute where
  name : PoolIndex
  body : Bytes
  deriving DecidableEq, Repr

/-- The bodies of the attributes of one name. -/
structure BodyForm (α : Type) where
  name : String
  layout : Layout α

namespace Attribute

def layout : Layout Attribute :=
  (Layout.u16.pair Layout.blob).imap (fun p => ⟨p.1, p.2⟩) fun a => (a.name, a.body)

/-- Reads a whole body. -/
def readBody {α : Type} (form : BodyForm α) (body : Bytes) : Except BodyFault α :=
  match form.layout.read body with
  | .error e => .error (.unreadable e)
  | .ok (a, []) => .ok a
  | .ok (_, rest) => .error (.trailing rest.length)

/-- Reads the body if the attribute has the name of the form. -/
def decode {α : Type} (form : BodyForm α) (pool : Pool) (a : Attribute) :
    Except ClassFault (Option α) := do
  if (← pool.utf8 a.name) = form.name then
    match readBody form a.body with
    | .ok value => .ok (some value)
    | .error fault => .error (.malformedAttribute form.name fault)
  else .ok none

/-- An attribute with the given body. -/
def encode {α : Type} (form : BodyForm α) (name : PoolIndex) (value : α) : Attribute :=
  ⟨name, form.layout.write value⟩

end Attribute

end ClassSplice
