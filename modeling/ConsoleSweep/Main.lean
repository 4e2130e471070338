import ConsoleSweep.FileTree.Edit
import ConsoleSweep.Program

/-!
# The command

The program on real files. Which files there are comes on the standard input: one path a line, seen
from the current directory, a directory with `/` at its end, and an empty line after the last. What
follows is the reply to the question. Files that the program changes are written back.
-/

namespace ConsoleSweep.Command

/-- The paths at the start of an input, and the input after the empty line that ends them. -/
def splitListing (input : Bytes) : (fuel : Nat) → List String × Bytes
  | 0 => ([], input)
  | fuel + 1 =>
    let (line, rest) := cutLine input
    let path := Utf8.lossy (line.filter (· ≠ lineFeed))
    if path = "" then ([], rest)
    else
      let (paths, rest) := splitListing rest fuel
      (path :: paths, rest)

/-- The bytes of an array. -/
def bytesOf (array : ByteArray) : Bytes := array.data.toList

/-- The array of bytes. -/
def arrayOf (bytes : Bytes) : ByteArray := ⟨bytes.toArray⟩

/-- Reads a stream to its end. -/
partial def readAll (stream : IO.FS.Stream) (read : Bytes) : IO Bytes := do
  let chunk ← stream.read 65536
  if chunk.isEmpty then return read else readAll stream (read ++ bytesOf chunk)

/-- The edit that makes a file or directory as it is on disk. -/
def editOf (path : String) : IO Edit := do
  if path.endsWith "/" then return .dir (.ofString path)
  else return .file (.ofString path) (bytesOf (← IO.FS.readBinFile path))

/-- Writes the files of a tree that another tree does not hold. -/
def writeChanges (before after : FileTree) : IO Unit := do
  for (path, node) in after.listing do
    match node with
    | .file data =>
      if (before.read path).toOption ≠ some data then
        IO.FS.writeBinFile path.display (arrayOf data)
    | _ => pure ()

end ConsoleSweep.Command

open ConsoleSweep in
/-- Runs the program. -/
def main (arguments : List String) : IO UInt32 := do
  let bytes ← Command.readAll (← IO.getStdin) []
  let (paths, reply) := Command.splitListing bytes bytes.length
  let tree := FileTree.empty.attemptAll (← paths.mapM Command.editOf)
  let invocation : Invocation :=
    ⟨(CommandLine.programName :: arguments).map Utf8.encode,
      (← IO.getEnv CommandLine.patternVariable).map Utf8.encode,
      (← IO.getEnv Program.filterVariable).map Utf8.encode⟩
  let exit := Program.run invocation tree reply
  (← IO.getStdout).write (Command.arrayOf exit.output)
  (← IO.getStderr).write (Command.arrayOf exit.errors)
  Command.writeChanges tree exit.tree
  return exit.code.toUInt32
