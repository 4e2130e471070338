import ConsoleSweep.CommandLine.Argument
import ConsoleSweep.Options
import ConsoleSweep.Text.Indent
import ConsoleSweep.Text.Similarity
import ConsoleSweep.Text.Visible

/-!
# Help and usage messages

A command line that does not lead to a run asks for help, asks for the version, or is misused. Each
has its text. `Misuse` lists the ways a command line can be wrong; together with the arguments given
so far it determines the message, the advice and the usage line.
-/

namespace ConsoleSweep.CommandLine

/-- Why a command line cannot be used. `given` lists the arguments before the one at fault. -/
inductive Misuse where
  /-- A long option that does not exist. -/
  | unknownLong (name : String) (given : List Arg)
  /-- Short options that do not exist. -/
  | unknownShort (letters : String)
  /-- A second directory. -/
  | surplus (spelled : String)
  /-- An option without its value, or an empty path. -/
  | missingValue (arg : Arg)
  /-- A switch with a value. -/
  | surplusValue (arg : Arg) (value : String) (given : List Arg)
  /-- An argument given twice. -/
  | repeated (arg : Arg)
  /-- A value that is not text. -/
  | notText
  /-- No directory. -/
  | missingDirectory (given : List Arg)
  deriving DecidableEq, Repr, Inhabited

/-- Why a command line does not lead to a run. -/
inductive Stop where
  /-- Help is asked for, in full or in short. -/
  | help (full : Bool)
  | version
  | misuse (why : Misuse)
  deriving DecidableEq, Repr, Inhabited

/-- The name of the program, unless it was started by another. -/
def programName : String := "noconsole"

/-- The version of the program. -/
def programVersion : String := "1.0.0"

/-- The variable that gives the pattern. -/
def patternVariable : String := "NOCONSOLE_PATTERN"

/-- The usage line for any options. -/
def generalUsage (name : String) : String :=
  "Usage: " ++ name ++ " [OPTIONS] " ++ Arg.directory.display

/-- The usage line for certain arguments, in order. The directory comes last, given or not. -/
def usageOf (name : String) (args : List Arg) : String :=
  "Usage: " ++ " ".intercalate
    (name :: (args.filter (· ≠ .directory)).map Arg.display ++ [Arg.directory.display])

namespace Misuse

/-- How alike a misspelled option and an option must be for the one to be taken for the other. -/
def likeness : Float := 0.7

/-- The option that an unknown spelling is most likely meant to be. -/
def meant? (name : String) : Option Arg :=
  (Similarity.mostAlike? likeness name (Arg.options.map Arg.long)).bind Arg.ofLong?

/-- What is wrong. -/
def problem : Misuse → String
  | unknownLong name _ => "unexpected argument '--" ++ name ++ "' found"
  | unknownShort letters => "unexpected argument '-" ++ letters ++ "' found"
  | surplus spelled => "unexpected argument '" ++ spelled ++ "' found"
  | missingValue arg => "a value is required for '" ++ arg.display ++ "' but none was supplied"
  | surplusValue arg value _ =>
    "unexpected value '" ++ value ++ "' for '" ++ arg.display ++ "' found; no more were expected"
  | repeated arg => "the argument '" ++ arg.display ++ "' cannot be used multiple times"
  | notText => "invalid UTF-8 was detected in one or more arguments"
  | missingDirectory _ =>
    "the following required arguments were not provided:\n  " ++ Arg.directory.display

/-- How to give a spelling as a value. -/
def asValue (spelled : String) : String :=
  "to pass '" ++ spelled ++ "' as a value, use '-- " ++ spelled ++ "'"

/-- What to do about it. -/
def advice? : Misuse → Option String
  | unknownLong name _ =>
    match meant? name with
    | some arg => some ("a similar argument exists: '--" ++ arg.long ++ "'")
    | none => some (asValue ("--" ++ name))
  | unknownShort letters => some (asValue ("-" ++ letters))
  | _ => none

/-- The usage line that goes with it. -/
def usage? (name : String) : Misuse → Option String
  | unknownLong spelled given =>
    match meant? spelled, given with
    | some arg, _ => some (usageOf name (arg.addTo given))
    | none, [] => some (generalUsage name)
    | none, given => some (usageOf name given)
  | surplusValue arg _ given => some (usageOf name (arg.addTo given))
  | missingDirectory given => some (usageOf name given)
  | missingValue _ => none
  | _ => some (generalUsage name)

/-- The message for the user. -/
def message (name : String) (m : Misuse) : String :=
  "error: " ++ m.problem ++ "\n\n" ++
  (m.advice?.elim "" fun advice => "  tip: " ++ advice ++ "\n\n") ++
  ((m.usage? name).elim "" fun usage => usage ++ "\n\n") ++
  "For more information, try '--help'.\n"

end Misuse

namespace Help

/-- What the program does, in short. -/
def summary : String := "Remove console.log statements from your codebase"

/-- What the program does, in full. -/
def description : String :=
  "noconsole walks a directory, finds console.log/debug/info/warn/error calls in JavaScript and " ++
    "TypeScript sources, and deletes them in place after confirmation. " ++
    "Use --dry-run to preview what would be removed without touching any file."

/-- What an argument does. -/
def about (full : Bool) : Arg → String
  | .directory => "Directory to process"
  | .pattern => "File pattern to match"
  | .dryRun => "Show what would be removed without making changes"
  | .exclude => "Additional directories to exclude (each applied as **/<name>/**)"
  | .yes => "Remove statements without asking for confirmation"
  | .theme => "Specify the path to a custom YAML theme file."
  | .debug => "Enable debug logging."
  | .help =>
    if full then "Print help (see a summary with '-h')" else "Print help (see more with '--help')"
  | .version => "Print version"

/-- The defaults of an argument: what its variable holds, and what holds without. -/
def defaults (setting : Option Bytes) : Arg → List String
  | .pattern =>
    ["[env: " ++ patternVariable ++ "=" ++ (setting.elim "" Utf8.lossy) ++ "]",
      "[default: " ++ Options.defaultPattern ++ "]"]
  | _ => []

/-- How an argument is spelled, in both spellings. -/
def spelling (arg : Arg) : String :=
  match arg with
  | .directory => Arg.directory.display
  | arg => (arg.short?.elim "    " fun c => String.ofList ['-', c, ',', ' ']) ++ arg.display

/-- The width of the column of spellings. -/
def columnOf (args : List Arg) : Nat := (args.map fun arg => (spelling arg).length).foldl max 0

/-- The entry of an argument: in short help one line, in full help a line and a paragraph. -/
def entry (full : Bool) (setting : Option Bytes) (column : Nat) (arg : Arg) : String :=
  let spelled := spelling arg
  let gap := if full then "\n\n" else " "
  let separator := if full then "\n" else " "
  let text :=
    match defaults setting arg with
    | [] => about full arg
    | notes => about full arg ++ gap ++ separator.intercalate notes
  if full then "  " ++ spelled ++ "\n" ++ blanks 10 ++ hanging 10 text
  else
    "  " ++ spelled ++ blanks (column - spelled.length) ++ "  " ++ hanging (column + 4) text

/-- The entries of several arguments, in full help with an empty line between them. -/
def entries (full : Bool) (setting : Option Bytes) (args : List Arg) : String :=
  (if full then "\n\n" else "\n").intercalate (args.map (entry full setting (columnOf args)))

/-- The text of help. -/
def text (name : String) (setting : Option Bytes) (full : Bool) : String :=
  (if full then description else summary) ++ "\n\n" ++ generalUsage name ++ "\n\n" ++
  "Arguments:\n" ++ entries full setting [.directory] ++ "\n\n" ++
  "Options:\n" ++ entries full setting Arg.options ++ "\n"

end Help

namespace Stop

/-- What is shown to the user. `setting` is what the variable that gives the pattern is set to. -/
def text (name : String) (setting : Option Bytes) : Stop → String
  | help full => visible (Help.text name setting full)
  | version => visible (programName ++ " " ++ programVersion ++ "\n")
  | misuse why => visible (why.message name)

/-- Whether the user got what was asked for. -/
def isAnswer : Stop → Bool
  | misuse _ => false
  | _ => true

end Stop

end ConsoleSweep.CommandLine
