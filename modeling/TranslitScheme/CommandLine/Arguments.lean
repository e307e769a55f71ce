/-!
# Command line arguments

The program has two commands, which compile schemes and list compiled tables. Options may be
given in a long and a short form, with their values attached or following, and short flags
may be run together. The options for settings and verbosity may stand on either side of the
name of the command, where the one behind it wins.

Reading stops at the first mistake, and also at a request for help or for the version.
-/

namespace TranslitScheme.CommandLine

/-- An option of the command line. -/
inductive OptionName where
  | config
  | verbose
  | outputDir
  | report
  | markdown
  | help
  | version
  deriving DecidableEq, Repr, Inhabited

namespace OptionName

/-- All options. -/
def all : List OptionName := [config, verbose, outputDir, report, markdown, help, version]

/-- The long form of an option, without dashes. -/
def long : OptionName → String
  | config => "config"
  | verbose => "verbose"
  | outputDir => "output-dir"
  | report => "report"
  | markdown => "markdown"
  | help => "help"
  | version => "version"

/-- The short form of an option, without dash. -/
def short : OptionName → Char
  | config => 'c'
  | verbose => 'v'
  | outputDir => 'o'
  | report => 'r'
  | markdown => 'm'
  | help => 'h'
  | version => 'V'

/-- An option that needs a value. -/
def takesValue : OptionName → Bool
  | config => true
  | outputDir => true
  | report => true
  | markdown => true
  | _ => false

end OptionName

/-- Why reading the arguments stops. -/
inductive Stop where
  | help
  | version
  | usage (reason : String)
  deriving DecidableEq, Repr, Inhabited

/-- What may be given on one side of the name of a command. -/
structure Level where
  options : List OptionName
  maxOperands : Nat
  deriving DecidableEq, Repr, Inhabited

namespace Level

/-- What may stand in front of the name of a command. -/
def root : Level where
  options := [.config, .verbose, .help, .version]
  maxOperands := 0

/-- What may stand behind the command that compiles schemes. -/
def compile : Level where
  options := [.outputDir, .report, .markdown, .config, .verbose, .help]
  maxOperands := 1

/-- What may stand behind the command that lists tables. -/
def schemes : Level where
  options := [.config, .verbose, .help]
  maxOperands := 1

/-- The option of a given long form. -/
def longOption? (level : Level) (text : String) : Option OptionName :=
  level.options.find? fun option => option.long == text

/-- The option of a given short form. -/
def shortOption? (level : Level) (c : Char) : Option OptionName :=
  level.options.find? fun option => option.short == c

end Level

/-- What has been given: options with their values, which are blank for flags, and operands. -/
structure Given where
  options : List (OptionName × String) := []
  operands : List String := []
  deriving DecidableEq, Repr, Inhabited

namespace Given

/-- The value of an option. -/
def value? (given : Given) (option : OptionName) : Option String := given.options.lookup option

/-- An option has been given. -/
def has (given : Given) (option : OptionName) : Bool := (given.value? option).isSome

/-- Take an option. No option may be given twice, and no value may be blank. -/
def take (given : Given) (option : OptionName) (value : String) : Except Stop Given :=
  if given.has option then
    .error (.usage ("the argument --" ++ option.long ++ " cannot be used multiple times"))
  else if option.takesValue ∧ value = "" then
    .error (.usage ("a value is required for --" ++ option.long))
  else
    match option with
    | .help => .error .help
    | .version => .error .version
    | option => .ok { given with options := given.options ++ [(option, value)] }

/-- Take an operand, if one more is allowed. -/
def takeOperand (given : Given) (level : Level) (operand : String) : Except Stop Given :=
  if level.maxOperands ≤ given.operands.length then
    .error (.usage ("unexpected argument '" ++ operand ++ "' found"))
  else if operand = "" then .error (.usage "a value is required")
  else .ok { given with operands := given.operands ++ [operand] }

/-- Take several operands. -/
def takeOperands (given : Given) (level : Level) (operands : List String) : Except Stop Given :=
  operands.foldlM (fun given operand => given.takeOperand level operand) given

end Given

/-- An argument that is an option rather than a value: a dash and something behind it. -/
def isOption (argument : String) : Bool :=
  match argument.toList with
  | '-' :: _ :: _ => true
  | _ => false

/-- A text without the equals sign at its start, if it starts with one. -/
def skipEquals : List Char → List Char
  | '=' :: rest => rest
  | text => text

/-- What an argument gives, and the option that still waits for its value. -/
structure Reading where
  given : Given
  pending : Option OptionName := none
  deriving DecidableEq, Repr, Inhabited

/-- Read the letters of short options. Behind an option with a value, the rest is the value. -/
def readShort (level : Level) : List Char → Given → Except Stop Reading
  | [], given => .ok ⟨given, none⟩
  | c :: rest, given =>
    match level.shortOption? c with
    | none => .error (.usage ("unexpected argument '-" ++ String.ofList [c] ++ "' found"))
    | some option =>
      if option.takesValue then
        if rest = [] then .ok { given, pending := some option }
        else do
          let given ← given.take option (String.ofList (skipEquals rest))
          return ⟨given, none⟩
      else do readShort level rest (← given.take option "")

/-- Read a long option, whose value may be attached to it. -/
def readLong (level : Level) (text : List Char) (given : Given) : Except Stop Reading :=
  let name := String.ofList (text.takeWhile (· != '='))
  match level.longOption? name, text.dropWhile (· != '=') with
  | none, _ => .error (.usage ("unexpected argument '--" ++ name ++ "' found"))
  | some option, [] =>
    if option.takesValue then .ok { given, pending := some option }
    else do
      let given ← given.take option ""
      return ⟨given, none⟩
  | some option, _ :: value =>
    if option.takesValue then do
      let given ← given.take option (String.ofList value)
      return ⟨given, none⟩
    else .error (.usage ("unexpected value for --" ++ option.long))

/-- Read an argument that is an option. -/
def readOption (level : Level) (argument : String) (given : Given) : Except Stop Reading :=
  match argument.toList with
  | '-' :: '-' :: text => readLong level text given
  | '-' :: text => readShort level text given
  | _ => .ok ⟨given, none⟩

/-- Read arguments. Where no operands are allowed, reading ends in front of the first one. -/
def readArguments (level : Level) : List String → Given → Except Stop (Given × List String)
  | [], given => .ok (given, [])
  | "--" :: rest, given => do
    if level.maxOperands = 0 then .error (.usage "unexpected argument '--' found")
    else return (← given.takeOperands level rest, [])
  | argument :: rest, given => do
    if isOption argument then
      match ← readOption level argument given, rest with
      | { given, pending := none }, rest => readArguments level rest given
      | { given, pending := some option }, value :: rest =>
        if isOption value then .error (.usage ("a value is required for --" ++ option.long))
        else readArguments level rest (← given.take option value)
      | { pending := some option, .. }, [] =>
        .error (.usage ("a value is required for --" ++ option.long))
    else if level.maxOperands = 0 then return (given, argument :: rest)
    else readArguments level rest (← given.takeOperand level argument)

/-- What the program is asked to do. -/
inductive Command where
  | compile (path : String) (outputDir report markdown : Option String)
  | schemes (directory : String)
  deriving DecidableEq, Repr, Inhabited

/-- The arguments of the program. -/
structure Arguments where
  config : Option String := none
  verbose : Bool := false
  command : Command
  deriving DecidableEq, Repr, Inhabited

namespace Arguments

/-- Arguments from what was given on both sides of the name of a command. -/
def ofGiven (before behind : Given) (command : Command) : Arguments where
  config := (behind.value? .config).orElse fun _ => before.value? .config
  verbose := before.has .verbose || behind.has .verbose
  command

/-- A request for help on a command, which must be one of the program's. -/
def helpOn : List String → Stop
  | [] => .help
  | [command] =>
    if command = "compile" ∨ command = "schemes" ∨ command = "help" then .help
    else .usage ("unrecognized subcommand '" ++ command ++ "'")
  | _ => .usage "unrecognized subcommand"

/-- Read the arguments of the program. -/
def parse (arguments : List String) : Except Stop Arguments := do
  let (before, rest) ← readArguments .root arguments { }
  match rest with
  | [] => .error (.usage "a subcommand is required")
  | "compile" :: rest =>
    let (behind, _) ← readArguments .compile rest { }
    match behind.operands with
    | path :: _ =>
      return ofGiven before behind
        (.compile path (behind.value? .outputDir) (behind.value? .report)
          (behind.value? .markdown))
    | [] => .error (.usage "the path of a scheme is required")
  | "schemes" :: rest =>
    let (behind, _) ← readArguments .schemes rest { }
    return ofGiven before behind (.schemes (behind.operands.headD "."))
  | "help" :: topics => .error (helpOn topics)
  | command :: _ => .error (.usage ("unrecognized subcommand '" ++ command ++ "'"))

end Arguments

end TranslitScheme.CommandLine
