import ClassSplice.Constant

/-!
# Faults inside a class

What can be wrong with a class file whose bytes could be read: an index that leads nowhere or to a
constant of the wrong kind, a descriptor that is none, an attribute body that does not match its
name.
-/

namespace ClassSplice

/-- Why the body of an attribute is not what the attribute's name says. -/
inductive BodyFault
  | unreadable (cause : ReadError)
  /-- Bytes are left over behind the structure. -/
  | trailing (count : Nat)
  deriving DecidableEq, Repr

def BodyFault.message : BodyFault → String
  | .unreadable cause => cause.message
  | .trailing count => toString count ++ " trailing bytes"

inductive ClassFault
  | missingConstant (index : PoolIndex)
  | unexpectedConstant (index : PoolIndex) (expected found : Tag)
  | badDescriptor (text : String)
  | malformedAttribute (name : String) (fault : BodyFault)
  deriving DecidableEq, Repr

/-- The index with its type named. -/
def indexDetail (index : PoolIndex) : String :=
  "ConstantIndex(" ++ toString index.toNat ++ ")"

/-- The fault with its parts named. -/
def ClassFault.detail : ClassFault → String
  | .missingConstant index => "MissingConstant(" ++ indexDetail index ++ ")"
  | .unexpectedConstant index expected found =>
    "UnexpectedConstant \x7b index: " ++ indexDetail index ++ ", expected: " ++
      quoted expected.name ++ ", found: " ++ quoted found.name ++ " \x7d"
  | .badDescriptor text => "BadDescriptor(" ++ quoted text ++ ")"
  | .malformedAttribute name fault =>
    "MalformedAttribute \x7b name: " ++ quoted name ++ ", reason: " ++ quoted fault.message ++
      " \x7d"

end ClassSplice
