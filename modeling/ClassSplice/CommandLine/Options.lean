import ClassSplice.Request

/-!
# Options of the command line

Arguments are taken from left to right, and the first one that is wrong decides. An option may stand
once, `--arg` any number of times; its value follows as the next argument or behind an equals sign.
A value of its own must not look like an option. Behind `--` there are no options.
-/

namespace ClassSplice.CommandLine

/-- The options that take a value and may stand once. -/
inductive TextOption
  | className | method | owner | name | descriptor | entryPoint
  deriving DecidableEq, Repr

def TextOption.flag : TextOption → String
  | className => "class"
  | method => "method"
  | owner => "owner"
  | name => "name"
  | descriptor => "descriptor"
  | entryPoint => "entry-point"

def TextOption.all : List TextOption := [className, method, owner, name, descriptor, entryPoint]

/-- What the arguments ask for. -/
structure Options where
  classPath : Option String
  texts : List (TextOption × String)
  /-- The arguments of the snippet. -/
  arguments : List String
  dump : Bool
  deriving DecidableEq, Repr

/-- What reading the arguments ends with instead of options. -/
inductive Stop
  | usage
  | help
  | version
  deriving DecidableEq, Repr

/-- An option that takes a value. -/
inductive ValueOption
  | text (option : TextOption)
  | argument
  deriving DecidableEq, Repr

namespace Options

def empty : Options := ⟨none, [], [], false⟩

def text? (o : Options) (option : TextOption) : Option String := o.texts.lookup option

def addValue (o : Options) (option : ValueOption) (value : String) : Except Stop Options :=
  match option with
  | .argument => .ok { o with arguments := o.arguments ++ [value] }
  | .text option =>
    if (o.text? option).isSome then .error .usage
    else .ok { o with texts := o.texts ++ [(option, value)] }

def addPositional (o : Options) (value : String) : Except Stop Options :=
  if o.classPath.isSome then .error .usage else .ok { o with classPath := some value }

end Options

/-- The option of that name that takes a value. -/
def valueOption? (name : String) : Option ValueOption :=
  if name = "arg" then some .argument else (TextOption.all.find? (·.flag == name)).map .text

/-- The part of a long option in front of its first equals sign, and the part behind it. -/
def splitEquals (cs : List Char) : String × Option String :=
  (String.ofList (cs.takeWhile (· ≠ '=')),
    match cs.dropWhile (· ≠ '=') with
    | [] => none
    | _ :: value => some (String.ofList value))

/-- What one argument is, judged by its first characters. -/
inductive Shape
  | separator
  | long (name : String) (value : Option String)
  /-- A cluster of short options, of which the first decides. -/
  | short (first : Char)
  | plain
  deriving DecidableEq, Repr

def shape (argument : String) : Shape :=
  match argument.toList with
  | ['-', '-'] => .separator
  | '-' :: '-' :: rest =>
    let (name, value) := splitEquals rest
    .long name value
  | '-' :: first :: _ => .short first
  | _ => .plain

/-- Reads arguments into the options found so far. -/
def readArguments (o : Options) : List String → Except Stop Options
  | [] => .ok o
  | argument :: rest =>
    match shape argument with
    | .separator => rest.foldlM Options.addPositional o
    | .short 'h' => .error .help
    | .short 'V' => .error .version
    | .short _ => .error .usage
    | .long "help" none => .error .help
    | .long "version" none => .error .version
    | .long "dump" none =>
      if o.dump then .error .usage else readArguments { o with dump := true } rest
    | .long name value =>
      match valueOption? name, value, rest with
      | none, _, _ => .error .usage
      | some option, some value, rest =>
        match o.addValue option value with
        | .error e => .error e
        | .ok o => readArguments o rest
      | some _, none, [] => .error .usage
      | some option, none, value :: rest =>
        if shape value = .plain then
          match o.addValue option value with
          | .error e => .error e
          | .ok o => readArguments o rest
        else .error .usage
    | .plain =>
      match o.addPositional argument with
      | .error e => .error e
      | .ok o => readArguments o rest

/-- What a complete command line asks for. -/
structure Command where
  classPath : String
  options : Options
  deriving DecidableEq, Repr

/-- A class path is required, and arguments of the snippet need an entry point. -/
def Command.ofArguments (arguments : List String) : Except Stop Command := do
  let options ← readArguments .empty arguments
  match options.classPath with
  | none => .error .usage
  | some classPath =>
    if !options.arguments.isEmpty && (options.text? .entryPoint).isNone then .error .usage
    else .ok ⟨classPath, options⟩

namespace Command

/-- The given text, or the one of the preset. -/
def text (c : Command) (option : TextOption) : String :=
  (c.options.text? option).getD <|
    match option with
    | .className => SpliceRequest.skillGain.targetClass.dotted
    | .method => SpliceRequest.skillGain.targetMethod.text
    | .owner => SpliceRequest.skillGain.calleeOwner.dotted
    | .name => SpliceRequest.skillGain.calleeName.text
    | .descriptor => SpliceRequest.skillGain.calleeDescriptor.render
    | .entryPoint => SpliceRequest.skillGain.snippet.entryPoint

def snippet (c : Command) : Snippet :=
  match c.options.text? .entryPoint with
  | some entryPoint => ⟨entryPoint, c.options.arguments⟩
  | none => SpliceRequest.skillGain.snippet

def request (c : Command) : Except RequestError SpliceRequest :=
  SpliceRequest.ofTexts (c.text .className) (c.text .method) (c.text .owner) (c.text .name)
    (c.text .descriptor) c.snippet

end Command

end ClassSplice.CommandLine
