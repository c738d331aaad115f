import ClassSplice.Instruction.Search
import ClassSplice.Log
import ClassSplice.Pool
import Std.Data.HashSet

/-!
# Finding a callee in a constant pool

A pool may hold several entries for one class and several references to one method. A class entry is
live when some field or method reference names it, and the first live entry is the one that counts.
All references to the callee through that entry are equivalent.
-/

namespace ClassSplice

/-! ## The class -/

/-- An entry for the class that is looked for. -/
structure Candidate where
  index : PoolIndex
  name : String
  isLive : Bool
  deriving DecidableEq, Repr

inductive ResolveError
  | noCandidates (name : String)
  | noLiveCandidate (name : String) (count : Nat)
  | malformed (cause : ClassFault)
  deriving DecidableEq, Repr

namespace Pool

/-- The classes that some field or method reference names. -/
def owners (pool : Pool) : Std.HashSet PoolIndex :=
  .ofList (pool.entries.filterMap (·.2.owner?))

/-- The class entries of the pool. -/
def classEntries (pool : Pool) : List PoolIndex :=
  pool.entries.filterMap fun
    | (index, .classRef _) => some index
    | _ => none

/-- The entries for a class, in order. The name of every class entry must be readable. -/
def candidates (pool : Pool) (name : ClassName) : Except ClassFault (List Candidate) := do
  let owners := pool.owners
  let named ← pool.classEntries.mapM fun index => return (index, ← pool.className index)
  return (named.filter (·.2 == name.dotted)).map fun (index, text) =>
    ⟨index, text, owners.contains index⟩

/-- The first live entry for a class. -/
def resolve (pool : Pool) (name : ClassName) : Logged ResolveError PoolIndex := do
  let candidates ← .ofExcept .malformed (pool.candidates name)
  if candidates.isEmpty then
    .fail (.noCandidates name.dotted)
  else
    match candidates.filter (·.isLive) with
    | [] => .fail (.noLiveCandidate name.dotted candidates.length)
    | [only] => return only.index
    | first :: others =>
      .warn (toString (others.length + 1) ++ " referenced class entries for " ++ name.dotted ++
        ", using #" ++ toString first.index.toNat)
      return first.index

end Pool

/-! ## The method -/

inductive CalleeError
  | memberNotFound (owner name descriptor : String)
  | malformed (cause : ClassFault)
  deriving DecidableEq, Repr

namespace Pool

/-- The method references through the class entry `owner`, each with its name and type. -/
def refsThrough (pool : Pool) (owner : PoolIndex) : List (PoolIndex × PoolIndex) :=
  pool.entries.filterMap fun
    | (index, .methodRef o nameAndType _) => if o = owner then some (index, nameAndType) else none
    | _ => none

/-- Those of them that have this name and descriptor. The texts of each must be readable. -/
def refsNamed (pool : Pool) (owner : PoolIndex) (name descriptor : String) :
    Except ClassFault (List PoolIndex) := do
  let texts ← (pool.refsThrough owner).mapM fun ref => return (ref.1, ← pool.nameAndType ref.2)
  return (texts.filter (·.2 == (name, descriptor))).map (·.1)

/-- The references to a method through the class entry `owner`, in order; never none at all. -/
def methodRefs (pool : Pool) (owner : PoolIndex) (name : String) (descriptor : MethodDescriptor) :
    Logged CalleeError (List PoolIndex) := do
  let rendered := descriptor.render
  match ← .ofExcept .malformed (pool.refsNamed owner name rendered) with
  | [] =>
    let ownerName ← .ofExcept .malformed (pool.className owner)
    .fail (.memberNotFound ownerName name rendered)
  | [only] => return [only]
  | found =>
    .warn (toString found.length ++ " references to " ++ name ++ rendered ++
      " in the constant pool (" ++
      ", ".intercalate (found.map fun index => "#" ++ toString index.toNat) ++
      "), matching calls through any of them")
    return found

/-- The instructions that call a static method through the class entry `owner`. -/
def invocations (pool : Pool) (owner : PoolIndex) (name : String)
    (descriptor : MethodDescriptor) : Logged CalleeError (List Encoding) := do
  return (← pool.methodRefs owner name descriptor).map Encoding.invokeStatic

end Pool

end ClassSplice
