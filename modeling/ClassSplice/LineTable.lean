import ClassSplice.Attribute

/-!
# Line tables

The source lines of a method's code. Entries stay in table order: nothing sorts them, and the same
line may come back several times. The line after a call is the line of the entry that follows the
first entry of the call's own line.
-/

namespace ClassSplice

/-- From the instruction at `start` on, the source line is `line`. -/
structure LineEntry where
  start : UInt16
  line : UInt16
  deriving DecidableEq, Repr

structure LineTable where
  entries : List LineEntry
  deriving DecidableEq, Repr

/-- Why an offset has no line to insert at. -/
inductive LineError
  /-- The table starts behind the offset, or is empty. -/
  | noEnclosingLine (offset : UInt16)
  /-- No entry follows the first entry of the line. -/
  | exhausted (line : UInt16)
  deriving DecidableEq, Repr

namespace LineTable

def isEmpty (table : LineTable) : Bool := table.entries.isEmpty

/-- The line of the last entry before the first one that starts behind `offset`. -/
def lineAt (table : LineTable) (offset : UInt16) : Option UInt16 :=
  (table.entries.takeWhile (·.start ≤ offset)).getLast?.map (·.line)

/-- The line at which code goes that is to run right after the instruction at `offset`. -/
def insertionLine (table : LineTable) (offset : UInt16) : Except LineError UInt16 :=
  match table.lineAt offset with
  | none => .error (.noEnclosingLine offset)
  | some line =>
    match table.entries.dropWhile (·.line ≠ line) with
    | [] => .error (.noEnclosingLine offset)
    | [_] => .error (.exhausted line)
    | _ :: next :: _ => .ok next.line

/-- The line of the first entry that starts exactly at `offset`. -/
def lineStartingAt (table : LineTable) (offset : UInt16) : Option UInt16 :=
  (table.entries.find? (·.start == offset)).map (·.line)

def entryLayout : Layout LineEntry :=
  (Layout.u16.pair Layout.u16).imap (fun p => ⟨p.1, p.2⟩) fun e => (e.start, e.line)

def layout : Layout LineTable := entryLayout.list.imap (⟨·⟩) (·.entries)

def form : BodyForm LineTable := ⟨"LineNumberTable", layout⟩

end LineTable

end ClassSplice
