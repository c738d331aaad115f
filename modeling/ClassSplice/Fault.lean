import ClassSplice.Text.Quoted

/-!
# Faults

The kinds of input and file faults, and the form in which a fault is shown inside a longer message.
-/

namespace ClassSplice

inductive FaultKind
  | invalidData
  | invalidInput
  | unexpectedEof
  | isADirectory
  | notADirectory
  | invalidFilename
  | permissionDenied
  deriving DecidableEq, Repr

def FaultKind.name : FaultKind → String
  | .invalidData => "InvalidData"
  | .invalidInput => "InvalidInput"
  | .unexpectedEof => "UnexpectedEof"
  | .isADirectory => "IsADirectory"
  | .notADirectory => "NotADirectory"
  | .invalidFilename => "InvalidFilename"
  | .permissionDenied => "PermissionDenied"

/-- A fault as it is shown: its kind, its message, and where the message comes from. -/
inductive Fault
  /-- A fault found by this library. -/
  | custom (kind : FaultKind) (message : String)
  /-- A fault with a fixed message. -/
  | simple (kind : FaultKind) (message : String)
  /-- A fault of the operating system, whose number follows the message. -/
  | system (code : Nat) (kind : FaultKind) (message : String)
  deriving DecidableEq, Repr

namespace Fault

def kind : Fault → FaultKind
  | custom k _ | simple k _ | system _ k _ => k

def message : Fault → String
  | custom _ m | simple _ m => m
  | system code _ m => m ++ " (os error " ++ toString code ++ ")"

/-- The fault with its parts named. -/
def detail : Fault → String
  | custom k m => "Custom \x7b kind: " ++ k.name ++ ", error: " ++ quoted m ++ " \x7d"
  | simple k m => "Error \x7b kind: " ++ k.name ++ ", message: " ++ quoted m ++ " \x7d"
  | system code k m =>
    "Os \x7b code: " ++ toString code ++ ", kind: " ++ k.name ++ ", message: " ++ quoted m ++
      " \x7d"

end Fault

end ClassSplice
