import ConsoleSweep.Path

/-!
# The arguments of a command line

The arguments that the program takes, with how they are spelled, read and shown in messages. Every
option has a long spelling, most have a short one, and `display` shows an argument with its value.
-/

namespace ConsoleSweep.CommandLine

/-- What can be given on the command line, in the order in which help lists it. -/
inductive Arg where
  | directory
  | pattern
  | dryRun
  | exclude
  | yes
  | theme
  | debug
  | help
  | version
  deriving DecidableEq, Repr, Inhabited

/-- How many values an argument takes. -/
inductive Takes where
  | nothing
  | one
  /-- At least one. -/
  | several
  deriving DecidableEq, Repr, Inhabited

namespace Arg

/-- Everything that is given by a spelling that starts with `-`. -/
def options : List Arg := [pattern, dryRun, exclude, yes, theme, debug, help, version]

/-- The long spelling of an option, without `--`. -/
def long : Arg → String
  | directory => ""
  | pattern => "pattern"
  | dryRun => "dry-run"
  | exclude => "exclude"
  | yes => "yes"
  | theme => "theme"
  | debug => "debug"
  | help => "help"
  | version => "version"

/-- The short spelling of an option, without `-`. -/
def short? : Arg → Option Char
  | pattern => some 'p'
  | dryRun => some 'd'
  | exclude => some 'e'
  | yes => some 'y'
  | help => some 'h'
  | version => some 'V'
  | directory => none
  | theme => none
  | debug => none

/-- How many values an argument takes. -/
def takes : Arg → Takes
  | directory => .one
  | pattern => .one
  | exclude => .several
  | theme => .one
  | dryRun => .nothing
  | yes => .nothing
  | debug => .nothing
  | help => .nothing
  | version => .nothing

/-- The value of an argument as help shows it. -/
def value : Arg → String
  | directory => "<DIRECTORY>"
  | pattern => "<GLOB>"
  | exclude => "<NAMES>..."
  | theme => "<FILE>"
  | dryRun => ""
  | yes => ""
  | debug => ""
  | help => ""
  | version => ""

/-- An argument with its value, as usage lines and messages show it. -/
def display (arg : Arg) : String :=
  match arg with
  | directory => directory.value
  | arg =>
    match arg.takes with
    | .nothing => "--" ++ arg.long
    | _ => "--" ++ arg.long ++ " " ++ arg.value

/-- The option of a long spelling. -/
def ofLong? (name : String) : Option Arg := options.find? (·.long == name)

/-- The option of a short spelling. -/
def ofShort? (letter : Char) : Option Arg := options.find? (·.short? == some letter)

/-- Adds an argument to a list, unless it is there. -/
def addTo (arg : Arg) (args : List Arg) : List Arg := if arg ∈ args then args else args ++ [arg]

end Arg

/-- The byte that starts an option. -/
def dash : UInt8 := 0x2D

/-- The byte between an option and its value. -/
def equals : UInt8 := 0x3D

/-- The byte between the names of one value. -/
def comma : UInt8 := 0x2C

/-- The form of one argument as it is spelled. -/
inductive Form where
  /-- `--`: what follows is no option. -/
  | separator
  /-- `--name` or `--name=value`. -/
  | long (name : Bytes) (value : Option Bytes)
  /-- `-abc`. -/
  | short (letters : Bytes)
  /-- Everything else, `-` included. -/
  | plain
  deriving DecidableEq, Repr, Inhabited

/-- The form of an argument. -/
def Form.of : Bytes → Form
  | a :: b :: rest =>
    if a ≠ dash then plain
    else if b ≠ dash then short (b :: rest)
    else if rest = [] then separator
    else
      let (name, value) := cutAt equals rest
      long name value
  | _ => plain

end ConsoleSweep.CommandLine
