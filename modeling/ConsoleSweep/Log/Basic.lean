/-!
# The log

While it works, the program says what it does in records, each with a level of importance and the
part of the program it comes from.
-/

namespace ConsoleSweep

namespace Log

/-- How important a record is, most important first. -/
inductive Level where
  | error
  | warn
  | info
  | debug
  | trace
  deriving DecidableEq, Repr, Inhabited

/-- The place of a level, counted from the most important. -/
def Level.rank : Level → Nat
  | error => 1
  | warn => 2
  | info => 3
  | debug => 4
  | trace => 5

/-- A level as records show it. -/
def Level.name : Level → String
  | error => "ERROR"
  | warn => "WARN"
  | info => "INFO"
  | debug => "DEBUG"
  | trace => "TRACE"

/-- The part of the program a record comes from. -/
inductive Source where
  | program
  | run
  | collector
  | scanner
  | remover
  deriving DecidableEq, Repr, Inhabited

/-- The name of a part as records show it. -/
def Source.name : Source → String
  | program => "noconsole"
  | run => "noconsole::commands::noconsole"
  | collector => "noconsole_core::collector"
  | scanner => "noconsole_core::scanner"
  | remover => "noconsole_core::remover"

/-- One record. -/
structure Record where
  level : Level
  source : Source
  text : String
  deriving DecidableEq, Repr, Inhabited

end Log

end ConsoleSweep
