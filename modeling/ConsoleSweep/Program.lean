import ConsoleSweep.CommandLine.Reading
import ConsoleSweep.Log.Filter
import ConsoleSweep.Sweep.Run
import ConsoleSweep.Theme.File

/-!
# The program

From the command line to the exit: reading arguments, loading the theme, the run, and what of it is
shown where. The report goes to the standard output, the log and the message about a failure to the
standard error. The program succeeds or fails; it has no other way to end.
-/

namespace ConsoleSweep

/-- What the program is started with, besides the files. -/
structure Invocation where
  /-- The command line, of which the first argument is the name of the program. -/
  arguments : List Bytes
  /-- What the variable that gives the pattern is set to. -/
  pattern : Option Bytes
  /-- What the variable that says which records are shown is set to. -/
  log : Option Bytes
  deriving DecidableEq, Repr, Inhabited

/-- What the program leaves behind. -/
structure Exit where
  succeeded : Bool
  output : Bytes
  errors : Bytes
  tree : FileTree

/-- The exit code. -/
def Exit.code (e : Exit) : Nat := if e.succeeded then 0 else 1

namespace Program

/-- Why the program fails once it has read its arguments. -/
inductive Fatal where
  | theme (defect : Theme.FileDefect)
  | run (failure : Failure)
  deriving DecidableEq, Repr

/-- The failure in words, followed by what it was caused by. -/
def Fatal.chain : Fatal → List String
  | theme defect => "Theme error" :: defect.chain
  | run failure => failure.chain

/-- The failure as it is shown to the user. -/
def Fatal.message (f : Fatal) : String := "Error: " ++ ": ".intercalate f.chain ++ "\n"

/-- The variable that says which records are shown. -/
def filterVariable : String := "RUST_LOG"

/-- The records that are shown unless something else is asked for. -/
def defaultFilter : String := "warn"

/-- What is asked for about the log. A setting that is not text does not count. -/
def filterText (setting : Option Bytes) : String := (setting.bind Utf8.decode?).getD defaultFilter

/-- The parts of the program whose records can be asked for on the command line. -/
def ownSources : List String := ["noconsole", "noconsole_core"]

/-- Which records are shown. -/
def filter (setting : Option Bytes) (debug : Bool) : Log.Filter :=
  let asked := Log.Filter.read (filterText setting)
  let own := if debug then ownSources else []
  (own.foldl (fun f source => f.put ⟨some source, some .debug⟩) asked).orErrors

/-- Loads the theme, if one is asked for. -/
def loadTheme (file : Option Path) : Action Fatal Theme := do
  match file with
  | none => return .standard
  | some path =>
    match Theme.load (← get).tree path with
    | .ok theme => return theme
    | .error defect => throw (.theme defect)

/-- Who answers the question of a run: the command line, or the user. -/
def confirmerFor (request : CommandLine.Request) : Confirmer :=
  if request.yes then .fixed true else .prompt

/-- Does what is asked for. -/
def act (request : CommandLine.Request) : Action Fatal Outcome := do
  Action.log .debug .program ("noconsole started. Version: " ++ CommandLine.programVersion)
  let theme ← loadTheme request.theme
  Action.log .debug .program ("Run options: " ++ request.options.describe)
  let setup : Setup := ⟨request.options, ⟨theme, false⟩, confirmerFor request, .none⟩
  let outcome ← setup.run.within .run
  Action.log .debug .program ("Run finished: " ++ outcome.describe)
  return outcome

/-- The records of a log that are shown. -/
def shownLog (filter : Log.Filter) (records : List Log.Record) : String :=
  String.join ((records.filter filter.shows).map Log.Record.line)

/-- The exit after a command line that does not lead to a run. -/
def stopped (name : String) (pattern : Option Bytes) (tree : FileTree) (stop : CommandLine.Stop) :
    Exit :=
  let text := Utf8.encode (stop.text name pattern)
  if stop.isAnswer then ⟨true, text, [], tree⟩ else ⟨false, [], text, tree⟩

/-- The exit after the requested action has ended in a world. -/
def ended (setting : Option Bytes) (debug : Bool) (failure : Option Fatal) (w : World) : Exit :=
  let warnings := String.join (Log.Filter.warnings (filterText setting))
  let log := shownLog (filter setting debug) w.log
  ⟨failure.isNone, w.sink.written,
    Utf8.encode (warnings ++ log ++ failure.elim "" Fatal.message), w.tree⟩

/-- Runs the program on a tree and an input. -/
def run (i : Invocation) (tree : FileTree) (input : Bytes) : Exit :=
  match CommandLine.read i.arguments.tail i.pattern with
  | .error stop => stopped (CommandLine.startedAs i.arguments.head?) i.pattern tree stop
  | .ok request =>
    match act request (.start tree none input) with
    | .ok _ w => ended i.log request.debug none w
    | .error failure w => ended i.log request.debug (some failure) w

end Program

end ConsoleSweep
