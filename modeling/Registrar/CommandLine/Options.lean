import Registrar.Configuration
import Registrar.Outline

/-!
Contract: the options of the command.

Owns: the arguments that the command takes, how they are read in order, what is
wrong with those it refuses, and the text that explains them.

Does not own: what is done with the options.
-/

set_option autoImplicit false

namespace Registrar.CommandLine

/-- How records are written. -/
inductive Format where
  /-- JSON, a field a line. -/
  | json
  /-- MessagePack with named fields. -/
  | messagePack
  deriving DecidableEq

namespace Format

def name : Format → String
  | json => "json"
  | messagePack => "msgpack"

def ofName? (text : String) : Option Format :=
  [json, messagePack].find? fun format => format.name == text

end Format

structure Options where
  /-- The file with the unit. A lone dash stands for standard input. -/
  input : Option String := none
  /-- The file for the records, standard output unless given. -/
  output : Option String := none
  moduleName : Option String := none
  format : Format := .json
  /-- The outline of the graph that is shown. -/
  outline : Option Outline.Stage := none
  isVerbose : Bool := false
  showsHelp : Bool := false
  showsVersion : Bool := false
  deriving DecidableEq

inductive UsageError where
  | unknownOption (argument : String)
  | missingValue (option : String)
  | unknownFormat (name : String)
  | unknownStage (name : String)
  | extraInput (path : String)
  | missingInput
  deriving DecidableEq

/-- What a user is told about arguments. -/
def UsageError.message : UsageError → String
  | unknownOption argument => "unknown option: " ++ argument
  | missingValue option => option ++ " requires a value"
  | unknownFormat name => "unknown format '" ++ name ++ "' (expected 'json' or 'msgpack')"
  | unknownStage name => Outline.Stage.unknownMessage name
  | extraInput path => "unexpected extra input: " ++ path
  | missingInput => "missing input file"

/-! ## Reading arguments -/

/-- The options that stand alone. -/
inductive Switch where
  | help
  | version
  | verbose
  deriving DecidableEq

def Switch.ofArgument? : String → Option Switch
  | "-h" | "--help" => some help
  | "-V" | "--version" => some version
  | "-v" | "--verbose" => some verbose
  | _ => none

/-- The options that the next argument is the value of. -/
inductive Setting where
  | moduleName
  | output
  | format
  | outline
  deriving DecidableEq

def Setting.ofArgument? : String → Option Setting
  | "-m" | "--module" => some moduleName
  | "-o" | "--output" => some output
  | "--format" => some format
  | "--dump-graph" => some outline
  | _ => none

namespace Options

def turnOn (options : Options) : Switch → Options
  | .help => { options with showsHelp := true }
  | .version => { options with showsVersion := true }
  | .verbose => { options with isVerbose := true }

/-- The options with a setting at a value. A later value replaces an earlier one. -/
def set (options : Options) (setting : Setting) (value : String) :
    Except UsageError Options :=
  match setting with
  | .moduleName => .ok { options with moduleName := some value }
  | .output => .ok { options with output := some value }
  | .format =>
      match Format.ofName? value with
      | some format => .ok { options with format }
      | none => .error (.unknownFormat value)
  | .outline =>
      match Outline.Stage.ofName? value with
      | some stage => .ok { options with outline := some stage }
      | none => .error (.unknownStage value)

/-- The options with an input. There is one at most. -/
def setInput (options : Options) (path : String) : Except UsageError Options :=
  match options.input with
  | some _ => .error (.extraInput path)
  | none => .ok { options with input := some path }

/-- Whether an argument looks like an option. A lone dash is an input. -/
def looksLikeOption (argument : String) : Bool :=
  argument.startsWith "-" && argument != "-"

/-- The options with an argument that takes no value. -/
def take (options : Options) (argument : String) : Except UsageError Options :=
  match Switch.ofArgument? argument with
  | some switch => .ok (options.turnOn switch)
  | none =>
      if looksLikeOption argument then .error (.unknownOption argument)
      else options.setInput argument

/-- Reads arguments from the left. The first that is wrong decides the error. -/
def readAll (options : Options) : List String → Except UsageError Options
  | [] => .ok options
  | argument :: rest =>
      match Setting.ofArgument? argument with
      | none =>
          match options.take argument with
          | .ok next => next.readAll rest
          | .error error => .error error
      | some setting =>
          match rest with
          | [] => .error (.missingValue argument)
          | value :: others =>
              match options.set setting value with
              | .ok next => next.readAll others
              | .error error => .error error

/-- Whether there is something to do. -/
def isComplete (options : Options) : Bool :=
  options.input.isSome || options.showsHelp || options.showsVersion

/-- The options that arguments ask for, without the name of the command. -/
def ofArguments (arguments : List String) : Except UsageError Options :=
  match readAll {} arguments with
  | .error error => .error error
  | .ok options => if options.isComplete then .ok options else .error .missingInput

/-- The settings of the run that is asked for. -/
def configuration (options : Options) : Configuration :=
  match options.moduleName with
  | some moduleName => { moduleName }
  | none => {}

end Options

/-! ## Texts -/

def version : String := "0.1.0"

def versionText : String := "bindplan " ++ version

def helpLines : List String :=
  [ versionText ++ " - plan C++ binding registrations from an annotated translation unit",
    "",
    "USAGE:",
    "    bindplan [OPTIONS] <INPUT.json>",
    "",
    "ARGUMENTS:",
    "    <INPUT.json>    Translation unit produced by the front end (`-` for stdin)",
    "",
    "OPTIONS:",
    "    -m, --module <NAME>       Module name matched by only_expose_in (default: module)",
    "    -o, --output <FILE>       Write records to FILE instead of stdout",
    "        --format <FORMAT>     json (default) or msgpack",
    "        --dump-graph <STAGE>  Print the exposure graph to stderr: visibility or pruned",
    "    -v, --verbose             Debug logging (RUST_LOG overrides)",
    "    -h, --help                Print help information",
    "    -V, --version             Print version information",
    "",
    "EXIT STATUS:",
    "    0    records written",
    "    1    generation failed; diagnostics are printed to stderr",
    "    2    invalid command line" ]

def helpText : String := "\n".intercalate helpLines

end Registrar.CommandLine
