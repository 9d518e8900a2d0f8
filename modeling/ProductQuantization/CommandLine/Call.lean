/-!
# Calls

A call gives the path of a job configuration with the option `--config-file`, and then the command:
`opq` for the rotation, `construct` for the codecs, `run` for both.  The path follows as the next
argument or after an equals sign.  The option is given once and before the command; after a command
nothing follows.

Help is asked for by an option, which may stand anywhere, or by the word `help` and the name of a
command.  Arguments are read from left to right, and the first that is out of place or asks for help
decides.
-/

set_option autoImplicit false

namespace ProductQuantization

/-- The part of a job to run. -/
inductive Command where
  | opq
  | construct
  | run
deriving DecidableEq, Repr

/-- The command with the given name. -/
def Command.ofName? : String → Option Command
  | "opq" => some .opq
  | "construct" => some .construct
  | "run" => some .run
  | _ => none

/-- What a call asks for. -/
inductive Invocation where
  | job (command : Command) (configPath : String)
  | help
deriving DecidableEq, Repr

namespace CommandLine

/-- The spellings of the option for the configuration. -/
def configOptions : List String := ["--config-file", "--config_file"]

/-- The value in an argument that has option and value in one. -/
def attachedValue? (argument : String) : Option String :=
  configOptions.findSome? fun option => (argument.dropPrefix? (option ++ "=")).map toString

/-- Whether an argument asks for help: the word after two dashes, or the letter after one, behind
which other letters may stand. -/
def asksForHelp (argument : String) : Bool := argument = "--help" || argument.startsWith "-h"

/-- Whether an argument can be a value: it is not empty and does not look like an option, as a dash
alone does not. -/
def isValue (argument : String) : Bool :=
  argument = "-" || (argument ≠ "" && !argument.startsWith "-")

/-- What follows a command: help, or nothing at all.  Two dashes announce that no options follow. -/
def parseCommand (command : Command) (config : Option String) : List String → Option Invocation
  | [] => config.map (.job command)
  | ["--"] => config.map (.job command)
  | argument :: _ => if asksForHelp argument then some .help else none

/-- What follows the word `help`: at most one command, or the word again. -/
def parseHelp : List String → Option Invocation
  | [] => some .help
  | [name] => if (Command.ofName? name).isSome || name = "help" then some .help else none
  | _ => none

/-- What the arguments ask for, given the configuration named so far. -/
def parse (config : Option String) : List String → Option Invocation
  | [] => none
  | argument :: rest =>
    if argument ∈ configOptions then
      match rest with
      | value :: rest => if config.isNone && isValue value then parse (some value) rest else none
      | [] => none
    else if asksForHelp argument then some .help
    else
      match attachedValue? argument with
      | some value => if config.isNone && value ≠ "" then parse (some value) rest else none
      | none =>
        match Command.ofName? argument with
        | some command => parseCommand command config rest
        | none => if argument = "help" then parseHelp rest else none

end CommandLine
end ProductQuantization
