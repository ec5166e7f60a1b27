import AmbientStubs.Text.Line

/-!
The command line: two commands, `generate` and `scan`, with their options.  Arguments
are taken from left to right.  The value of an option or positional argument is judged
only when the next known option is taken or the arguments end, so an unknown argument
is reported first.
-/

namespace AmbientStubs

open Text

inductive Command where
  | generate (module : String) (config : Option String) (dryRun json includeSdk : Bool)
  | scan (module : String) (config : Option String) (json : Bool)
deriving DecidableEq, Repr

structure CommandLine where
  command : Command
  verbose : Bool
deriving DecidableEq, Repr

namespace CommandLine

/-- Why arguments describe no command, requests for help included. -/
inductive Refusal where
  | help
  /-- Help, because nothing at all was given. -/
  | helpOnNothing
  | version
  | missingCommand
  | unknownCommand
  | missingArgument
  | unknownArgument
  | repeatedArgument
  | invalidValue
  | unexpectedValue
deriving DecidableEq, Repr

namespace Refusal

/-- Whether the user asked for the text that is shown; only then does the program succeed. -/
def isAnswer : Refusal → Bool
  | help | version => true
  | _ => false

def message : Refusal → String
  | help | helpOnNothing => "help was asked for"
  | version => "the version was asked for"
  | missingCommand => "a command is required"
  | unknownCommand => "there is no such command"
  | missingArgument => "the module root is missing"
  | unknownArgument => "there is no such argument"
  | repeatedArgument => "an option is given more than once"
  | invalidValue => "an option or the module root has no value"
  | unexpectedValue => "an option that takes no value has one"

end Refusal

inductive Flag where
  | verbose
  | dryRun
  | json
  | includeSdk
  | help
  | version
deriving DecidableEq, Repr

namespace Flag

def longName : Flag → String
  | verbose => "verbose"
  | dryRun => "dry-run"
  | json => "json"
  | includeSdk => "include-sdk"
  | help => "help"
  | version => "version"

def shortName? : Flag → Option Char
  | verbose => some 'v'
  | help => some 'h'
  | version => some 'V'
  | _ => none

end Flag

structure Level where
  flags : List Flag
  /-- Whether the option with a settings file is known. -/
  takesConfig : Bool

namespace Level

def top : Level := ⟨[.verbose, .help, .version], false⟩

def generate : Level := ⟨[.verbose, .dryRun, .json, .includeSdk, .help], true⟩

def scan : Level := ⟨[.verbose, .json, .help], true⟩

end Level

inductive Pending where
  /-- The value of the settings option; none if it has not come yet. -/
  | config (value : Option String)
  | positional (value : String)
deriving DecidableEq, Repr

structure Given where
  flags : List Flag := []
  config : Option String := none
  module : Option String := none
  pending : Option Pending := none
deriving DecidableEq, Repr

namespace Given

/-- Take the value of the settings option: it is given once and is not empty. -/
def setConfig (given : Given) (value : String) : Except Refusal Given :=
  if given.config.isSome then .error .repeatedArgument
  else if value.isEmpty then .error .invalidValue
  else .ok { given with config := some value }

def settle (given : Given) : Except Refusal Given :=
  let rest := { given with pending := none }
  match given.pending with
  | none => .ok given
  | some (.config none) => .error .invalidValue
  | some (.config (some value)) => rest.setConfig value
  | some (.positional value) =>
      if value.isEmpty then .error .invalidValue
      else .ok { rest with module := some value }

/-- Take a flag, which may be given once. -/
def giveFlag (given : Given) (flag : Flag) : Except Refusal Given := do
  let given ← given.settle
  match flag with
  | .help => .error .help
  | .version => .error .version
  | _ =>
      if given.flags.contains flag then .error .repeatedArgument
      else .ok { given with flags := given.flags ++ [flag] }

def giveConfig (given : Given) (attached : Option String) : Except Refusal Given := do
  let given ← given.settle
  match attached with
  | some value => given.setConfig value
  | none => .ok { given with pending := some (.config none) }

def giveLong (level : Level) (given : Given) (option : List Char) : Except Refusal Given :=
  let name := String.ofList (option.takeWhile (· != '='))
  let attached := match option.dropWhile (· != '=') with
    | [] => none
    | _ :: value => some (String.ofList value)
  if level.takesConfig && name == "config" then given.giveConfig attached
  else
    match level.flags.find? (·.longName == name) with
    | none => .error .unknownArgument
    | some flag => if attached.isSome then .error .unexpectedValue else given.giveFlag flag

/-- Take a cluster of short options without its dash.  What follows the settings option
is its value, after an equals sign if there is one. -/
def giveShort (level : Level) (given : Given) : List Char → Except Refusal Given
  | [] => .ok given
  | letter :: rest =>
      if level.takesConfig && letter == 'c' then
        given.giveConfig (match rest with
          | [] => none
          | '=' :: value => some (String.ofList value)
          | value => some (String.ofList value))
      else
        match level.flags.find? (·.shortName? == some letter) with
        | none => .error .unknownArgument
        | some flag => do (← given.giveFlag flag).giveShort level rest

def givePositional (given : Given) (value : String) : Except Refusal Given := do
  match given.module, given.pending with
  | none, some (.positional _) => .error .unknownArgument
  | some _, _ => .error .unknownArgument
  | none, _ => do
      let given ← given.settle
      .ok { given with pending := some (.positional value) }

/-- Take the arguments of a command.  After `--` all of them are positional. -/
def giveAll (level : Level) (given : Given) (positionalOnly : Bool) :
    List String → Except Refusal Given
  | [] => given.settle
  | argument :: rest =>
      match positionalOnly, argument.toList, given.pending with
      | true, _, _ => do (← given.givePositional argument).giveAll level true rest
      | false, ['-', '-'], _ => given.giveAll level true rest
      | false, '-' :: '-' :: option, _ => do
          (← given.giveLong level option).giveAll level false rest
      | false, '-' :: letter :: more, _ => do
          (← given.giveShort level (letter :: more)).giveAll level false rest
      | false, _, some (.config none) =>
          { given with pending := some (.config (some argument)) }.giveAll level false rest
      | false, _, _ => do (← given.givePositional argument).giveAll level false rest

end Given

/-- The command that the arguments after `generate` or `scan` make. -/
def ofArguments (level : Level) (verbose : Bool) (arguments : List String)
    (make : Given → String → Command) : Except Refusal CommandLine := do
  let given ← ({} : Given).giveAll level false arguments
  match given.module with
  | none => .error .missingArgument
  | some module => .ok ⟨make given module, verbose || given.flags.contains .verbose⟩

def commandNames : List String := ["generate", "scan", "help"]

def helpOn : List String → Refusal
  | [] => .help
  | [name] => if commandNames.contains name then .help else .unknownCommand
  | _ => .unknownCommand

def withoutCommand (given : Given) : Refusal :=
  if given.flags.isEmpty then .helpOnNothing else .missingCommand

/-- What is wrong after `--` before a command: a command does not stand there, and nothing
else can. -/
def afterDashes (given : Given) : List String → Refusal
  | [] => withoutCommand given
  | argument :: _ =>
      if commandNames.contains argument then .unknownArgument else .unknownCommand

def readFrom (given : Given) : List String → Except Refusal CommandLine
  | [] => .error (withoutCommand given)
  | "generate" :: rest =>
      ofArguments .generate (given.flags.contains .verbose) rest fun given module =>
        .generate module given.config (given.flags.contains .dryRun)
          (given.flags.contains .json) (given.flags.contains .includeSdk)
  | "scan" :: rest =>
      ofArguments .scan (given.flags.contains .verbose) rest fun given module =>
        .scan module given.config (given.flags.contains .json)
  | "help" :: rest => .error (helpOn rest)
  | argument :: rest =>
      match argument.toList with
      | ['-', '-'] => .error (afterDashes given rest)
      | '-' :: '-' :: option => do readFrom (← given.giveLong .top option) rest
      | '-' :: letter :: more => do readFrom (← given.giveShort .top (letter :: more)) rest
      | _ => .error .unknownCommand

/-- Read the arguments of the program, of which the first is its name. -/
def read (arguments : List String) : Except Refusal CommandLine :=
  readFrom {} (arguments.drop 1)

end CommandLine

end AmbientStubs
