import ClassSplice.Descriptor

/-!
# Splice requests

Which method to instrument, which call to look for in it, and the snippet to put behind that call.
-/

namespace ClassSplice

/-- A call statement. Its arguments are passed on as they are. -/
structure Snippet where
  entryPoint : String
  arguments : List String
  deriving DecidableEq, Repr

def Snippet.render (s : Snippet) : String :=
  s.entryPoint ++ "(" ++ ", ".intercalate s.arguments ++ ");"

structure SpliceRequest where
  targetClass : ClassName
  /-- The method to instrument; of several with this name, the first. -/
  targetMethod : MemberName
  calleeOwner : ClassName
  calleeName : MemberName
  calleeDescriptor : MethodDescriptor
  snippet : Snippet
  deriving DecidableEq

inductive RequestError
  | badName (cause : NameError)
  | badDescriptor (cause : DescriptorError)
  deriving DecidableEq, Repr

namespace RequestError

def message : RequestError → String
  | badName cause => cause.message
  | badDescriptor cause => cause.message

/-- The error with its parts named. -/
def detail : RequestError → String
  | badName cause => "BadName(" ++ quoted cause.message ++ ")"
  | badDescriptor cause => "BadDescriptor(" ++ quoted cause.message ++ ")"

end RequestError

namespace SpliceRequest

/-- Builds a request from class names with dots, member names and a descriptor. -/
def ofTexts (targetClass targetMethod calleeOwner calleeName calleeDescriptor : String)
    (snippet : Snippet) : Except RequestError SpliceRequest := do
  let targetClass ← (ClassName.ofDotted targetClass).mapError .badName
  let targetMethod ← (MemberName.ofString targetMethod).mapError .badName
  let calleeOwner ← (ClassName.ofDotted calleeOwner).mapError .badName
  let calleeName ← (MemberName.ofString calleeName).mapError .badName
  let calleeDescriptor ← (MethodDescriptor.parse calleeDescriptor).mapError .badDescriptor
  return { targetClass, targetMethod, calleeOwner, calleeName, calleeDescriptor, snippet }

def skillClass : ClassName := ⟨"com/wurmonline/server/skills/Skill", by decide⟩

/-- Reports a skill roll right after it is made. -/
def skillGain : SpliceRequest where
  targetClass := skillClass
  targetMethod := ⟨"checkAdvance", by decide⟩
  calleeOwner := skillClass
  calleeName := ⟨"rollGaussian", by decide⟩
  calleeDescriptor := ⟨[.float, .float, .long, .object .string], some .float⟩
  snippet := ⟨"com.joedobo27.sgi.SkillGainInformationMod#printSkillInformation",
    ["$0", "$0.parent.id", "$3", "skill", "$1", "power"]⟩

def withTargetMethod (name : String) (r : SpliceRequest) : Except RequestError SpliceRequest := do
  return { r with targetMethod := ← (MemberName.ofString name).mapError .badName }

def withSnippet (snippet : Snippet) (r : SpliceRequest) : SpliceRequest := { r with snippet }

end SpliceRequest

end ClassSplice
