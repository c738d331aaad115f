import ClassSplice.CommandLine

/-!
# The program

Looks up one file and prints what the plan makes of it.
-/

namespace ClassSplice.CommandLine

/-- What the error with that number says about a path. Negated numbers stand for themselves. -/
def targetOfErrorCode (code : UInt32) : PathTarget :=
  match (if code < 0x80000000 then code else 0 - code).toNat with
  | 13 => .fault .permissionDenied
  | 20 => .fault .notADirectory
  | 21 => .directory
  | 36 => .fault .nameTooLong
  | _ => .missing

/-- What the file system answers when the file at `path` is opened and read. -/
def lookupFile (path : String) : IO PathTarget := do
  if path.toList.contains '\x00' then
    return .fault .nulInName
  try
    let content ← IO.FS.readBinFile path
    return .file content.toList
  catch
    | .inappropriateType _ code _ | .invalidArgument _ code _ | .permissionDenied _ code _ =>
      return targetOfErrorCode code
    | _ => return .missing

def Output.print (output : Output) : IO UInt32 := do
  for line in output.out do
    IO.println line
  for line in output.err do
    IO.eprintln line
  return UInt32.ofNat output.status

end ClassSplice.CommandLine

open ClassSplice.CommandLine in
def main (arguments : List String) : IO UInt32 := do
  match Plan.ofArguments arguments with
  | .finished output => output.print
  | .lookup path go => (go (← lookupFile path)).print
