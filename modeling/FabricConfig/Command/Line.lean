import FabricConfig.Named

/-! The command line: flags that go before or after the name of a command, and the options and
arguments of each command. -/

namespace FabricConfig.Command

/-- What the environment says. -/
structure Environment where
  /-- The registry used if the command line names none. -/
  boards : Option String := none
  /-- Which log events are shown. -/
  logFilter : Option String := none

/-- A command with its arguments. -/
inductive Request where
  | resolve (boards config : String) (board : Option String) (inputs outputs : List String)
      (writeBack : Option String)
  | paths (boards config : String) (board : Option String)
  | precision (spec : String)
  | boards (path : String)
deriving DecidableEq

/-- A request and how its log is shown. -/
structure Invocation where
  verbose : Bool
  json : Bool
  request : Request
deriving DecidableEq

/-- Why a command line asks for no command. -/
inductive Refusal where
  | usage
  | help
  | version
deriving DecidableEq

/-- The names of the commands. -/
inductive CommandName where
  | resolve
  | paths
  | precision
  | boards
deriving DecidableEq

instance : Named CommandName where
  all := [.resolve, .paths, .precision, .boards]
  name
    | .resolve => "resolve"
    | .paths => "paths"
    | .precision => "precision"
    | .boards => "boards"

/-- The options that take a value. -/
inductive OptionName where
  | boards
  | config
  | board
  | input
  | output
  | writeBack
deriving DecidableEq

namespace OptionName

instance : Named OptionName where
  all := [.boards, .config, .board, .input, .output, .writeBack]
  name
    | .boards => "boards"
    | .config => "config"
    | .board => "board"
    | .input => "input"
    | .output => "output"
    | .writeBack => "write-back"

/-- The option with a given letter. -/
def ofLetter? : Char → Option OptionName
  | 'c' => some .config
  | _ => none

/-- Whether the value is a path, which is never empty. -/
def isPath : OptionName → Bool
  | .boards | .config | .writeBack => true
  | .board | .input | .output => false

/-- Whether the option may be given more than once. -/
def isRepeatable : OptionName → Bool
  | .input | .output => true
  | _ => false

end OptionName

namespace CommandName

def options : CommandName → List OptionName
  | .resolve => [.boards, .config, .board, .input, .output, .writeBack]
  | .paths => [.boards, .config, .board]
  | .precision => []
  | .boards => [.boards]

/-- The number of arguments that are not options. -/
def arity : CommandName → Nat
  | .precision => 1
  | _ => 0

end CommandName

/-- What the arguments in one place say: before the name of the command, if there is none yet, or
after it. -/
structure Arguments where
  command : Option CommandName
  verbose : Bool := false
  json : Bool := false
  values : List (OptionName × String) := []
  words : List String := []

namespace Arguments

/-- Sets the flag for more log events, once. -/
def setVerbose (arguments : Arguments) : Except Refusal Arguments :=
  if arguments.verbose then .error .usage else .ok { arguments with verbose := true }

/-- Sets the flag for log events in JSON, once. -/
def setJson (arguments : Arguments) : Except Refusal Arguments :=
  if arguments.json then .error .usage else .ok { arguments with json := true }

/-- Whether the command has an option. -/
def allows (arguments : Arguments) (option : OptionName) : Bool :=
  match arguments.command with
  | none => false
  | some command => command.options.contains option

/-- The values given to an option. -/
def valuesOf (arguments : Arguments) (option : OptionName) : List String :=
  (arguments.values.filter fun entry => entry.1 == option).map Prod.snd

/-- Adds a value of an option. -/
def addValue (arguments : Arguments) (option : OptionName) (value : String) :
    Except Refusal Arguments :=
  if option.isPath && value.isEmpty then .error .usage
  else if !option.isRepeatable && !(arguments.valuesOf option).isEmpty then .error .usage
  else .ok { arguments with values := arguments.values ++ [(option, value)] }

/-- Adds an argument that is not an option. -/
def addWord (arguments : Arguments) (word : String) : Except Refusal Arguments :=
  if arguments.words.length < ((arguments.command.map CommandName.arity).getD 0) then
    .ok { arguments with words := arguments.words ++ [word] }
  else .error .usage

/-- Adds arguments none of which is an option. -/
def addWords (arguments : Arguments) : List String → Except Refusal Arguments
  | [] => .ok arguments
  | word :: rest => do (← arguments.addWord word).addWords rest

/-- Reads the name of a flag or option, with a value if one is attached. Gives the option back that
still needs a value. -/
def addLong (arguments : Arguments) (name : String) (value : Option String) :
    Except Refusal (Arguments × Option OptionName) :=
  match name, value with
  | "verbose", none => return (← arguments.setVerbose, none)
  | "json", none => return (← arguments.setJson, none)
  | "help", none => .error .help
  | "version", none => if arguments.command.isNone then .error .version else .error .usage
  | name, value =>
    match Named.ofName? name with
    | none => .error .usage
    | some option =>
      if arguments.allows option then
        match value with
        | some value => return (← arguments.addValue option value, none)
        | none => return (arguments, some option)
      else .error .usage

/-- Reads letters after a dash. Gives the option back that still needs a value. -/
def addLetters (arguments : Arguments) :
    List Char → Except Refusal (Arguments × Option OptionName)
  | [] => .ok (arguments, none)
  | 'v' :: rest => do (← arguments.setVerbose).addLetters rest
  | 'h' :: _ => .error .help
  | letter :: rest =>
    if letter = 'V' ∧ arguments.command.isNone then .error .version
    else
      match OptionName.ofLetter? letter with
      | none => .error .usage
      | some option =>
        if arguments.allows option then
          match rest with
          | [] => return (arguments, some option)
          | '=' :: value => return (← arguments.addValue option (String.ofList value), none)
          | value => return (← arguments.addValue option (String.ofList value), none)
        else .error .usage

end Arguments

/-- What an argument looks like. -/
inductive Shape where
  /-- Two dashes, after which there are no options. -/
  | divider
  | long (name : String) (value : Option String)
  | letters (letters : List Char)
  | word
deriving DecidableEq

/-- What an argument looks like. A single dash is a word. -/
def Shape.of (argument : String) : Shape :=
  match argument.toList with
  | ['-', '-'] => .divider
  | '-' :: '-' :: body =>
    let name := body.takeWhile (· != '=')
    match body.drop name.length with
    | [] => .long (String.ofList name) none
    | _ :: value => .long (String.ofList name) (some (String.ofList value))
  | '-' :: letter :: rest => .letters (letter :: rest)
  | _ => .word

/-- Reads the arguments after the name of a command. An option in want of a value takes the next
argument, which has to be a word. -/
def Arguments.read (arguments : Arguments) (pending : Option OptionName) :
    List String → Except Refusal Arguments
  | [] => if pending.isSome then .error .usage else .ok arguments
  | argument :: rest =>
    match pending, Shape.of argument with
    | some option, .word => do (← arguments.addValue option argument).read none rest
    | some _, _ => .error .usage
    | none, .word => do (← arguments.addWord argument).read none rest
    | none, .divider => arguments.addWords rest
    | none, .long name value => do
      let (arguments, pending) ← arguments.addLong name value
      arguments.read pending rest
    | none, .letters letters => do
      let (arguments, pending) ← arguments.addLetters letters
      arguments.read pending rest

namespace Arguments

/-- The only value of an option. -/
def value? (arguments : Arguments) (option : OptionName) : Option String :=
  (arguments.valuesOf option).head?

/-- The value of an option that has to be there. -/
def needed (arguments : Arguments) (option : OptionName) : Except Refusal String :=
  match arguments.value? option with
  | some value => .ok value
  | none => .error .usage

/-- The registry: the one given or else that of the environment. -/
def registry (arguments : Arguments) (environment : Environment) : Except Refusal String :=
  match arguments.value? .boards <|> environment.boards with
  | none | some "" => .error .usage
  | some path => .ok path

/-- The values of an option that may be repeated, or else a default. -/
def valuesOr (arguments : Arguments) (option : OptionName) (fallback : String) : List String :=
  match arguments.valuesOf option with
  | [] => [fallback]
  | values => values

/-- The request that the arguments of a command make. -/
def request (arguments : Arguments) (environment : Environment) (command : CommandName) :
    Except Refusal Request :=
  match command with
  | .resolve => do
    let boards ← arguments.registry environment
    let config ← arguments.needed .config
    return .resolve boards config (arguments.value? .board) (arguments.valuesOr .input "input")
      (arguments.valuesOr .output "output") (arguments.value? .writeBack)
  | .paths => do
    let boards ← arguments.registry environment
    let config ← arguments.needed .config
    return .paths boards config (arguments.value? .board)
  | .precision =>
    match arguments.words with
    | [spec] => return .precision spec
    | _ => .error .usage
  | .boards => return .boards (← arguments.registry environment)

end Arguments

/-- What the words after a request for help ask for: the whole program, one of its commands, or the
request for help itself. -/
def helpOn : List String → Refusal
  | [] => .help
  | [topic] =>
    if topic = "help" ∨ (Named.ofName? topic : Option CommandName).isSome then .help else .usage
  | _ => .usage

/-- Reads a command line. The flags come first, then the name of a command, then its arguments. -/
def Invocation.read (environment : Environment) (flags : Arguments) :
    List String → Except Refusal Invocation
  | [] => .error .usage
  | argument :: rest =>
    match Shape.of argument with
    | .divider => .error .usage
    | .long name value => do
      let (flags, _) ← flags.addLong name value
      Invocation.read environment flags rest
    | .letters letters => do
      let (flags, _) ← flags.addLetters letters
      Invocation.read environment flags rest
    | .word =>
      match Named.ofName? argument with
      | none => .error (if argument = "help" then helpOn rest else .usage)
      | some command => do
        let start : Arguments := { command := some command }
        let arguments ← start.read none rest
        let request ← arguments.request environment command
        return ⟨flags.verbose || arguments.verbose, flags.json || arguments.json, request⟩

/-- Reads a command line. -/
def Invocation.ofArguments (environment : Environment) (arguments : List String) :
    Except Refusal Invocation :=
  Invocation.read environment { command := none } arguments

end FabricConfig.Command
