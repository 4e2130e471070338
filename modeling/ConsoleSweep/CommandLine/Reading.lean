import ConsoleSweep.CommandLine.Usage

/-!
# Reading a command line

Arguments are read from left to right. An option whose value is not attached to it waits for values,
and so does the directory; what waits is settled when the next option, the directory, or the end of
the command line shows that no value follows. A misuse found on the way ends the reading.

The order in which misuses are found shows in the message: an unknown argument is reported before
the fault of an argument that was still waiting, every other misuse after it.
-/

namespace ConsoleSweep.CommandLine

/-- What a command line asks a run to do. -/
structure Request where
  directory : Path
  pattern : String
  dryRun : Bool
  exclude : List String
  yes : Bool
  theme : Option Path
  debug : Bool
  deriving DecidableEq, Repr, Inhabited

/-- The options of the requested run. -/
def Request.options (r : Request) : Options :=
  (((Options.ofRoot r.directory).withPattern r.pattern).withDryRun r.dryRun).withExcludes r.exclude

/-- What has been given so far. -/
structure Given where
  /-- The arguments, each once, in the order of their first occurrence. -/
  args : List Arg
  directory : Option Path
  pattern : Option String
  exclude : List String
  theme : Option Path
  deriving DecidableEq, Repr, Inhabited

namespace Given

/-- Nothing given. -/
def nothing : Given := ⟨[], none, none, [], none⟩

/-- A path is given by any bytes but none. -/
def path? (value : Bytes) : Option Path := if value = [] then none else some ⟨value⟩

/-- The names in values, separated by commas, if all of them are text. -/
def names? (values : List Bytes) : Option (List String) :=
  (values.flatMap (partsAt comma)).mapM Utf8.decode?

/-- Stores the values of an argument. -/
def store (g : Given) (arg : Arg) (values : List Bytes) : Except Misuse Given :=
  match arg with
  | .directory =>
    match path? values.flatten with
    | some path => .ok { g with directory := some path }
    | none => .error (.missingValue arg)
  | .theme =>
    match path? values.flatten with
    | some path => .ok { g with theme := some path }
    | none => .error (.missingValue arg)
  | .pattern =>
    match Utf8.decode? values.flatten with
    | some pattern => .ok { g with pattern := some pattern }
    | none => .error .notText
  | .exclude =>
    match names? values with
    | some names => .ok { g with exclude := g.exclude ++ names }
    | none => .error .notText
  | _ => .ok g

/-- Takes an argument with its values. What counts as given is known after a misuse too: an argument
without its value does not, a repeated one no longer does, and one with a bad value does. -/
def take (g : Given) (arg : Arg) (values : List Bytes) : Given × Option Misuse :=
  if arg.takes ≠ .nothing ∧ values = [] then (g, some (.missingValue arg))
  else if arg ∈ g.args ∧ arg.takes ≠ .several then
    ({ g with args := g.args.erase arg }, some (.repeated arg))
  else
    let g := { g with args := arg.addTo g.args }
    match g.store arg values with
    | .ok g => (g, none)
    | .error why => (g, some why)

end Given

/-- How far a command line has been read. -/
structure Reading where
  given : Given
  /-- The argument that waits for values, and those it has. -/
  waiting : Option (Arg × List Bytes)
  /-- Whether what follows is no option. -/
  literal : Bool
  deriving DecidableEq, Repr, Inhabited

namespace Reading

/-- Nothing read. -/
def start : Reading := ⟨.nothing, none, false⟩

/-- What is given once the waiting argument has all its values, and what is wrong with it. -/
def settled (r : Reading) : Given × Option Misuse :=
  match r.waiting with
  | none => (r.given, none)
  | some (arg, values) => r.given.take arg values

/-- Lets the waiting argument have the values it has. -/
def settle (r : Reading) : Except Stop Reading :=
  match r.settled with
  | (given, none) => .ok { r with given, waiting := none }
  | (_, some why) => .error (.misuse why)

/-- Takes an argument with the values attached to it. -/
def supply (r : Reading) (arg : Arg) (values : List Bytes) : Except Stop Reading := do
  let r ← r.settle
  match r.given.take arg values with
  | (given, none) => .ok { r with given }
  | (_, some why) => .error (.misuse why)

/-- Lets an argument wait for values. -/
def await (r : Reading) (arg : Arg) (values : List Bytes) : Except Stop Reading := do
  let r ← r.settle
  .ok { r with waiting := some (arg, values) }

/-- Takes a switch. Help and version end the reading. -/
def switch (r : Reading) (arg : Arg) (full : Bool) : Except Stop Reading := do
  match arg with
  | .help =>
    let _ ← r.settle
    .error (.help full)
  | .version =>
    let _ ← r.settle
    .error .version
  | arg => r.supply arg []

/-- Takes a long option. -/
def long (r : Reading) (name : Bytes) (value : Option Bytes) : Except Stop Reading :=
  match (Utf8.decode? name).bind Arg.ofLong? with
  | none => .error (.misuse (.unknownLong (Utf8.lossy name) r.settled.1.args))
  | some arg =>
    match arg.takes, value with
    | .nothing, none => r.switch arg true
    | .nothing, some value =>
      .error (.misuse (.surplusValue arg (Utf8.lossy value) r.given.args))
    | _, none => r.await arg []
    | _, some value => r.supply arg [value]

/-- The value attached to a short option, which an equals sign may start. -/
def attached : List Utf8.Piece → Bytes
  | .char '=' :: rest => Utf8.join rest
  | rest => Utf8.join rest

/-- Takes short options. One that takes a value takes what follows it, if anything does. -/
def short (r : Reading) : List Utf8.Piece → Except Stop Reading
  | [] => .ok r
  | .stray bytes :: rest =>
    .error (.misuse (.unknownShort (Utf8.lossy (bytes ++ Utf8.join rest))))
  | .char c :: rest =>
    match Arg.ofShort? c with
    | none => .error (.misuse (.unknownShort (String.singleton c)))
    | some arg =>
      match arg.takes, rest with
      | .nothing, rest => do (← r.switch arg false).short rest
      | _, [] => r.await arg []
      | _, rest => r.supply arg [attached rest]

/-- Whether the waiting argument takes one more value. -/
def wantsMore (r : Reading) : Bool :=
  match r.waiting with
  | some (.directory, _) => false
  | some (arg, values) => arg.takes = .several || values.isEmpty
  | none => false

/-- Whether the directory has been given. -/
def hasDirectory (r : Reading) : Bool :=
  r.waiting.any (·.1 = .directory) || .directory ∈ r.given.args

/-- Takes the directory. -/
def place (r : Reading) (spelled : Bytes) : Except Stop Reading :=
  if r.hasDirectory then .error (.misuse (.surplus (Utf8.lossy spelled)))
  else r.await .directory [spelled]

/-- Takes what is no option: a value of the waiting argument, or the directory. -/
def plain (r : Reading) (spelled : Bytes) : Except Stop Reading :=
  match r.waiting with
  | some (arg, values) =>
    if r.wantsMore then .ok { r with waiting := some (arg, values ++ [spelled]) }
    else r.place spelled
  | none => r.place spelled

/-- Takes the next argument. -/
def step (r : Reading) (spelled : Bytes) : Except Stop Reading :=
  if r.literal then r.place spelled
  else
    match Form.of spelled with
    | .separator => .ok { r with literal := true }
    | .long name value => r.long name value
    | .short letters => r.short (Utf8.pieces letters)
    | .plain => r.plain spelled

/-- The pattern that the variable gives, unless the command line gives one. -/
def withVariable (g : Given) : Option Bytes → Except Stop Given
  | none => .ok g
  | some value =>
    if .pattern ∈ g.args then .ok g
    else
      match g.take .pattern [value] with
      | (g, none) => .ok g
      | (_, some why) => .error (.misuse why)

/-- What is asked for at the end of the command line. -/
def finish (r : Reading) (setting : Option Bytes) : Except Stop Request := do
  let given ← withVariable (← r.settle).given setting
  match given.directory with
  | none => .error (.misuse (.missingDirectory given.args))
  | some directory =>
    .ok {
      directory
      pattern := given.pattern.getD Options.defaultPattern
      dryRun := .dryRun ∈ given.args
      exclude := given.exclude
      yes := .yes ∈ given.args
      theme := given.theme
      debug := .debug ∈ given.args }

end Reading

/-- Reads the arguments after the name of the program. `setting` is what the variable that
gives the pattern is set to. -/
def read (arguments : List Bytes) (setting : Option Bytes) : Except Stop Request := do
  (← arguments.foldlM Reading.step .start).finish setting

/-- The name by which the program was started. -/
def startedAs (invoked : Option Bytes) : String :=
  ((invoked.bind fun bytes => (Path.mk bytes).fileName?).bind Utf8.decode?).getD programName

end ConsoleSweep.CommandLine
