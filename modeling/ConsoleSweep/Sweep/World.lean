import ConsoleSweep.Collect
import ConsoleSweep.ScanResult

/-!
# What a run acts on

A run reads and changes a file tree, writes its report to a sink, reads replies from an input, and
keeps a log. All of it is one value, `World`; an action is a function from worlds to worlds with a
result or a failure, and a failure keeps what was done before it.
-/

namespace ConsoleSweep

/-- Where the report goes. A limited sink has room for so many more bytes. -/
structure Sink where
  written : Bytes
  room : Option Nat
  deriving DecidableEq, Repr, Inhabited

namespace Sink

/-- A sink with nothing in it. -/
def ofLimit (limit : Option Nat) : Sink := ⟨[], limit⟩

/-- Writes bytes and says whether they all fit. What fits is kept. -/
def write (s : Sink) (bytes : Bytes) : Bool × Sink :=
  match s.room with
  | none => (true, { s with written := s.written ++ bytes })
  | some room =>
    (decide (bytes.length ≤ room),
      ⟨s.written ++ bytes.take room, some (room - bytes.length)⟩)

end Sink

/-- A question put to the user, and the answer that an empty reply stands for. -/
structure Ask where
  question : String
  default : Bool
  deriving DecidableEq, Repr, Inhabited

/-- What was done to a file, by path. -/
inductive Access where
  | read (path : Path)
  | write (path : Path) (done : Bool)
  deriving DecidableEq, Repr, Inhabited

/-- Everything a run acts on. -/
structure World where
  tree : FileTree
  sink : Sink
  /-- What is still to be read of the input. -/
  input : Bytes
  /-- The records so far, oldest first. -/
  log : List Log.Record
  /-- The questions put to the user so far, oldest first. -/
  asked : List Ask
  /-- The files read and written so far, oldest first. -/
  accesses : List Access
  deriving Inhabited

namespace World

/-- A world in which nothing has happened yet. -/
def start (tree : FileTree) (limit : Option Nat) (input : Bytes) : World :=
  ⟨tree, .ofLimit limit, input, [], [], []⟩

end World

/-- An action on a world that may fail. -/
abbrev Action (ε : Type) := EStateM ε World

namespace Action

variable {ε ε' α : Type}

/-- An action whose failures are seen in a wider context. -/
def within (context : ε → ε') (act : Action ε α) : Action ε' α := fun w =>
  match act w with
  | .ok a w => .ok a w
  | .error e w => .error (context e) w

/-- Adds records to the log. -/
def logAll (records : List Log.Record) : Action ε Unit :=
  modify fun w => { w with log := w.log ++ records }

/-- Adds a record to the log. -/
def log (level : Log.Level) (source : Log.Source) (text : String) : Action ε Unit :=
  logAll [⟨level, source, text⟩]

/-- Writes text to the sink, or fails with `full` if it does not fit. -/
def write (full : ε) (text : String) : Action ε Unit := fun w =>
  let (fits, sink) := w.sink.write (Utf8.encode text)
  let w := { w with sink }
  if fits then .ok () w else .error full w

/-- Changes the tree from outside. -/
def outside (change : FileTree → FileTree) : Action ε Unit :=
  modify fun w => { w with tree := change w.tree }

/-- Notes what was done to a file. -/
def note (access : Access) : Action ε Unit :=
  modify fun w => { w with accesses := w.accesses ++ [access] }

/-- Reads a file as text. -/
def readText (path : Path) : Action FileFault String := do
  note (.read path)
  match (← get).tree.readText path with
  | .ok text => return text
  | .error fault => throw (.unreadable path fault)

/-- Writes a file. -/
def writeText (path : Path) (text : String) : Action FileFault Unit := do
  match (← get).tree.write path (Utf8.encode text) with
  | .ok tree =>
    note (.write path true)
    modify fun w => { w with tree }
  | .error fault =>
    note (.write path false)
    throw (.unwritable path fault)

end Action

end ConsoleSweep
