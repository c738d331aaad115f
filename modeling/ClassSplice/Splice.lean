import ClassSplice.CallSite

/-!
# Splicing

A request is carried out by loading its class, finding the call site and handing the snippet to a
weaver. The class is only read, so a method that is skipped stays as it was.
-/

namespace ClassSplice

/-! ## Weavers -/

/-- A snippet and where it goes. -/
structure Insertion where
  targetClass : ClassName
  method : MemberName
  line : UInt16
  snippet : String
  deriving DecidableEq

/-- States that can take in a snippet, or reject it with a message. -/
class Weaver (ω : Type) where
  insert : ω → Insertion → Except String ω

/-- A weaver that remembers what it was given. -/
structure Recorder where
  insertions : List Insertion
  /-- The message with which every insertion is rejected, if any. -/
  rejectWith : Option String
  deriving DecidableEq

def Recorder.empty : Recorder := ⟨[], none⟩

instance : Weaver Recorder where
  insert r i :=
    match r.rejectWith with
    | some message => .error message
    | none => .ok { r with insertions := r.insertions ++ [i] }

/-! ## Carrying out a request -/

structure SpliceResult (ω : Type) where
  /-- The line at which the snippet was inserted, or why it was not. -/
  outcome : Except Obstacle UInt16
  weaver : ω
  log : List LogRecord

namespace SpliceRequest

variable {ω : Type}

def insertionAt (request : SpliceRequest) (line : UInt16) : Insertion :=
  ⟨request.targetClass, request.targetMethod, line, request.snippet.render⟩

/-- The line of the insertion and the weaver after it. -/
def weave [Weaver ω] (request : SpliceRequest) (load : ClassName → Except LoadError ClassFile)
    (weaver : ω) : Logged Obstacle (UInt16 × ω) := do
  let c ← .ofExcept .classUnavailable (load request.targetClass)
  let site ← request.locate c
  let weaver ← .ofExcept .weaveRejected
    (Weaver.insert weaver (request.insertionAt site.insertionLine))
  return (site.insertionLine, weaver)

/-- The record of what became of the request. -/
def record (request : SpliceRequest) : Except Obstacle UInt16 → LogRecord
  | .ok line => ⟨.info, "Patched " ++ request.targetClass.dotted ++ "." ++
      request.targetMethod.text ++ " at line " ++ toString line.toNat⟩
  | .error obstacle => ⟨.warn, "Skipping " ++ request.targetClass.dotted ++ "." ++
      request.targetMethod.text ++ ": " ++ obstacle.message⟩

/-- Carries out the request; a weaver that takes nothing in is left as it was. -/
def splice [Weaver ω] (request : SpliceRequest) (load : ClassName → Except LoadError ClassFile)
    (weaver : ω) : SpliceResult ω :=
  let woven := request.weave load weaver
  let outcome := woven.outcome.map (·.1)
  { outcome
    weaver := match woven.outcome with
      | .ok (_, weaver) => weaver
      | .error _ => weaver
    log := woven.log ++ [request.record outcome] }

end SpliceRequest

end ClassSplice
