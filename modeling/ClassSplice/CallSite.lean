import ClassSplice.Callee
import ClassSplice.ClassSource
import ClassSplice.Request

/-!
# Call sites

The last call of the requested callee in the requested method, and the line at which code goes that
is to run after it.
-/

namespace ClassSplice

/-! ## Obstacles -/

/-- What the constant pool lacks of the callee. -/
inductive MissingSymbol
  | classEntry (name : String)
  | liveClassEntry (name : String) (count : Nat)
  | methodRef (owner name descriptor : String)
  deriving DecidableEq, Repr

def MissingSymbol.message : MissingSymbol → String
  | .classEntry name => "no class entry for " ++ name
  | .liveClassEntry name count =>
    "none of the " ++ toString count ++ " class entries for " ++ name ++ " is referenced"
  | .methodRef owner name descriptor =>
    "no method reference for " ++ owner ++ "." ++ name ++ descriptor

/-- Why a method is left alone. -/
inductive Obstacle
  | classUnavailable (cause : LoadError)
  | methodNotFound (name : MemberName)
  /-- The method is abstract or native. -/
  | missingCode
  | missingLineNumbers
  | malformed (cause : ClassFault)
  | symbolNotFound (symbol : MissingSymbol)
  /-- The method never calls the callee. -/
  | instructionNotFound
  | bytecode (cause : ScanError)
  | line (cause : LineError)
  | weaveRejected (message : String)
  deriving DecidableEq

namespace Obstacle

def ofResolveError : ResolveError → Obstacle
  | .noCandidates name => symbolNotFound (.classEntry name)
  | .noLiveCandidate name count => symbolNotFound (.liveClassEntry name count)
  | .malformed cause => malformed cause

def ofCalleeError : CalleeError → Obstacle
  | .memberNotFound owner name descriptor => symbolNotFound (.methodRef owner name descriptor)
  | .malformed cause => malformed cause

def message : Obstacle → String
  | classUnavailable (.notFound name) => "class " ++ name.dotted ++ " not found"
  | classUnavailable cause => "class could not be loaded: " ++ cause.detail
  | methodNotFound name => "no method named " ++ name.text
  | missingCode => "method has no code"
  | missingLineNumbers => "method has no line number table"
  | malformed cause => "malformed class file: " ++ cause.detail
  | symbolNotFound symbol => "symbol not found: " ++ symbol.message
  | instructionNotFound => "call instruction not found"
  | bytecode (.unsupportedWidth opcode offset) =>
    "unsupported variable width opcode 0x" ++ hexPadded 2 opcode.toNat ++ " at offset " ++
      toString offset.toNat
  | bytecode cause => "malformed bytecode: " ++ cause.detail
  | line (.noEnclosingLine offset) => "no line number covers offset " ++ toString offset.toNat
  | line (.exhausted last) => "no line number entry follows line " ++ toString last.toNat
  | weaveRejected message => "weaver rejected the snippet: " ++ message

end Obstacle

/-! ## Location -/

structure CallSite where
  /-- The offset of the call. -/
  offset : UInt16
  insertionLine : UInt16
  deriving DecidableEq, Repr

/-- The code of the requested method and its line table, which is not empty. -/
def SpliceRequest.targetCode (request : SpliceRequest) (c : ClassFile) :
    Except Obstacle (Code × LineTable) := do
  let some method := c.method? request.targetMethod.text
    | .error (.methodNotFound request.targetMethod)
  let some code ← (method.code c.pool).mapError .malformed
    | .error .missingCode
  let lines ← (code.lineTable c.pool).mapError .malformed
  if lines.isEmpty then .error .missingLineNumbers else .ok (code, lines)

/-- The encodings of the requested call. -/
def SpliceRequest.calls (request : SpliceRequest) (pool : Pool) :
    Logged Obstacle (List Encoding) := do
  let owner ← (pool.resolve request.calleeOwner).mapError .ofResolveError
  (pool.invocations owner request.calleeName.text request.calleeDescriptor).mapError .ofCalleeError

/-- The last of the calls in the code, and the line behind it. -/
def callSiteIn (code : Bytes) (lines : LineTable) (calls : List Encoding) :
    Except Obstacle CallSite := do
  let some offset ← (lastOccurrence code calls).mapError .bytecode
    | .error .instructionNotFound
  let line ← (lines.insertionLine offset).mapError .line
  return ⟨offset, line⟩

/-- Finds the call site that a request asks for. -/
def SpliceRequest.locate (request : SpliceRequest) (c : ClassFile) : Logged Obstacle CallSite := do
  let (code, lines) ← .ofExcept id (request.targetCode c)
  let calls ← request.calls c.pool
  .ofExcept id (callSiteIn code.bytecode lines calls)

end ClassSplice
