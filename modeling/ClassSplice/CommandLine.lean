import ClassSplice.CommandLine.Options
import ClassSplice.Listing
import ClassSplice.Splice

/-!
# The command line

Arguments are turned into a plan, which says which file to look up and what to print once its
content is known. The snippet is not woven in: its place is printed.
-/

namespace ClassSplice.CommandLine

/-- What a run prints, and its exit status. -/
structure Output where
  status : Nat
  out : List String
  err : List String
  deriving DecidableEq, Repr

namespace Output

def success (out : List String) : Output := ⟨0, out, []⟩

def failure (message : String) : Output := ⟨1, [], [message]⟩

/-- The output of a run that failed before or while it had to do with a class. -/
def error (detail : String) : Output := failure ("Error: " ++ detail)

end Output

def title : String := "Call site patcher"

def versionLine : String := title ++ " 0.1.0"

def usageLines : List String :=
  ["Find the line just after a static call, for inserting instrumentation there", "",
    "Usage: [OPTIONS] <CLASSPATH>", "",
    "  --class <CLASS_NAME>   class containing the method to instrument",
    "  --method <METHOD>      method to instrument",
    "  --owner <CLASS_NAME>   class declaring the static method being called",
    "  --name <NAME>          name of the static method being called",
    "  --descriptor <TYPE>    descriptor of the static method being called",
    "  --entry-point <NAME>   method called by the inserted snippet",
    "  --arg <TEXT>           argument passed to the entry point (repeatable)",
    "  --dump                 list the instructions and line numbers of the method",
    "  -h, --help             print help",
    "  -V, --version          print the version"]

def Stop.output : Stop → Output
  | .usage => ⟨2, [], usageLines⟩
  | .help => .success usageLines
  | .version => .success [versionLine]

/-! ## Running -/

/-- The line that stands for an insertion. -/
def insertionLine (i : Insertion) : String :=
  i.targetClass.dotted ++ "." ++ i.method.text ++ ":" ++ toString i.line.toNat ++ ": " ++ i.snippet

def badRequest (detail : String) : Output := .error ("BadRequest(" ++ detail ++ ")")

/-- Prints where the snippet goes. -/
def place (request : SpliceRequest) (target : PathTarget) : Output :=
  let result := request.splice (ClassPath.loadTarget · target) Recorder.empty
  match result.outcome with
  | .ok _ => .success (result.weaver.insertions.map insertionLine)
  | .error obstacle => .failure ("Not patched: " ++ obstacle.message)

/-- Prints the instructions of the method. -/
def dump (request : SpliceRequest) (target : PathTarget) : Output :=
  match ClassPath.loadTarget request.targetClass target with
  | .error e => .error ("ClassUnavailable(" ++ e.detail ++ ")")
  | .ok c =>
    match Listing.ofMethod request.targetMethod c with
    | .error (.methodNotFound name) => .failure ("No method named " ++ name.text)
    | .error (.missingCode name) => .failure (name.text ++ " has no code")
    | .error (.malformed cause) => badRequest cause.detail
    | .error (.unlistable cause) => .failure ("Cannot list instructions: " ++ cause.detail)
    | .ok ⟨lines, none⟩ => .success lines
    | .ok ⟨lines, some fault⟩ =>
      ⟨0, lines, ["[ERROR callsite_patch] Stopped listing: " ++ fault.detail]⟩

/-- What is to be done for some arguments. -/
inductive Plan
  | finished (output : Output)
  /-- Look up the file at `path` and go on with what is found there. -/
  | lookup (path : String) (go : PathTarget → Output)

def Plan.ofArguments (arguments : List String) : Plan :=
  match Command.ofArguments arguments with
  | .error stop => .finished stop.output
  | .ok command =>
    match command.request with
    | .error e => .finished (badRequest e.detail)
    | .ok request =>
      .lookup (ClassPath.pathOf ⟨command.classPath⟩ request.targetClass)
        (if command.options.dump then dump request else place request)

/-- Runs the plan on what lies at each path. -/
def Plan.run (files : String → PathTarget) : Plan → Output
  | finished output => output
  | lookup path go => go (files path)

end ClassSplice.CommandLine
