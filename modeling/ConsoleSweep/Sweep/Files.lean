import ConsoleSweep.Sweep.World

/-!
# Scanning and rewriting one file

A file is read and searched when it is scanned, and read again when it is rewritten. In between and
while its text is searched or stripped, somebody else may change the tree: that is an
`Interference`. The text already read is not affected by it.
-/

namespace ConsoleSweep

/-- What somebody else does to the tree while a text is searched for statements or stripped of
them. -/
structure Interference where
  duringFind : String → FileTree → FileTree
  duringStrip : String → FileTree → FileTree

namespace Interference

/-- Nobody else changes anything. -/
def none : Interference := ⟨fun _ tree => tree, fun _ tree => tree⟩

end Interference

open ConsoleSweep.Action

/-- Reads a file below the root and finds its statements. -/
def scanFile (others : Interference) (root file : Path) : Action FileFault ScanResult := do
  let text ← readText (root.join file)
  outside (others.duringFind text)
  let result := ScanResult.ofText file text
  log .debug .scanner ("Scanner found " ++ toString result.count ++ " console statement(s).")
  return result

/-- Removes the statements of a file that has been scanned, and gives their number. The file is read
again and stripped of what it holds now; what the scan found only shows whether it has changed. A
dry run does nothing and gives the number found. -/
def removeStatements (others : Interference) (root : Path) (result : ScanResult) (dryRun : Bool) :
    Action FileFault Nat := do
  if dryRun then return result.count
  let path := root.join result.path
  let text ← readText path
  outside (others.duringStrip text)
  let (stripped, removed) := Statement.strip text
  if removed ≠ result.count then
    log .warn .remover (result.path.display ++ " changed since it was scanned: expected " ++
      toString result.count ++ " statement(s), removing " ++ toString removed ++ ".")
  if removed = 0 then return 0
  writeText path stripped
  log .info .remover ("Removed " ++ toString removed ++ " statement(s) from " ++ path.display)
  return removed

end ConsoleSweep
