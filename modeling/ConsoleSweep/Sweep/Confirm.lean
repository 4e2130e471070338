import ConsoleSweep.Sweep.World
import ConsoleSweep.Text.Blank
import ConsoleSweep.Text.Lowercase

/-!
# Asking for confirmation

Before a run rewrites files it asks a confirmer. One gives a fixed answer; the other prompts, reads
one line of the input, and takes an empty reply for the default.
-/

namespace ConsoleSweep

/-- Why a run fails. -/
inductive Failure where
  | collecting (root : Path) (fault : CollectFault)
  | scanning (file : Path) (fault : FileFault)
  | removing (file : Path) (fault : FileFault)
  /-- The report does not fit into the sink. -/
  | sinkFull
  /-- The reply cannot be read. -/
  | replying (fault : Fault)
  deriving DecidableEq, Repr

/-- The failure in words, followed by what it was caused by. -/
def Failure.chain : Failure → List String
  | collecting root fault => ("Failed to collect files under " ++ root.display) :: fault.chain
  | scanning file fault => ("Failed to scan " ++ file.display) :: fault.chain
  | removing file fault => ("Failed to remove statements from " ++ file.display) :: fault.chain
  | sinkFull => ["sink full"]
  | replying fault => ["Failed to read confirmation input.", fault.message]

/-- An action of a run. -/
abbrev Sweep := Action Failure

/-- The answer a reply gives. -/
def parseAnswer (reply : String) (default : Bool) : Bool :=
  match lowerCase (trimBlanks reply) with
  | "" => default
  | "y" => true
  | "yes" => true
  | _ => false

/-- The byte that ends a line. -/
def lineFeed : UInt8 := 0x0A

/-- The first line of the input with its line feed, and the input after it. The last line may end
without one. -/
def cutLine : Bytes → Bytes × Bytes
  | [] => ([], [])
  | b :: rest =>
    if b = lineFeed then ([b], rest)
    else
      let (line, after) := cutLine rest
      (b :: line, after)

/-- Writes a part of the report. -/
def report (text : String) : Sweep Unit := Action.write .sinkFull text

/-- Reads the next line of the input. The line is used up even if it is not text. -/
def readLine : Sweep String := do
  let (line, rest) := cutLine (← get).input
  modify fun w => { w with input := rest }
  match Utf8.decode? line with
  | some text => return text
  | none => throw (.replying .notText)

/-- Answers questions. -/
structure Confirmer where
  confirm : (question : String) → (default : Bool) → Sweep Bool

namespace Confirmer

/-- Gives the same answer to every question, without asking. -/
def fixed (answer : Bool) : Confirmer := ⟨fun _ _ => return answer⟩

/-- What follows a question, by default answer. -/
def hint (default : Bool) : String := if default then "(Y/n)" else "(y/N)"

/-- A question as it is put on the sink. -/
def promptText (question : String) (default : Bool) : String :=
  question ++ " " ++ hint default ++ ": "

/-- Asks on the sink and reads the reply from the input. A reply without a line feed is followed by
one on the sink, so that the report goes on in a new line. -/
def prompt : Confirmer :=
  ⟨fun question default => do
    report (promptText question default)
    let reply ← readLine
    if reply.toList.getLast? ≠ some '\n' then report "\n"
    return parseAnswer reply default⟩

end Confirmer

end ConsoleSweep
