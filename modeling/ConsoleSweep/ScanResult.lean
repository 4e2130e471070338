import ConsoleSweep.FileTree.Access
import ConsoleSweep.Log.Basic
import ConsoleSweep.Statement.Split

/-!
# What a run finds

A scan result holds the statements found in one file; a summary holds the totals of a run.
-/

namespace ConsoleSweep

/-- Why a file is not scanned or not rewritten. -/
inductive FileFault where
  | unreadable (path : Path) (fault : Fault)
  | unwritable (path : Path) (fault : Fault)
  deriving DecidableEq, Repr

/-- The fault in words, followed by what it was caused by. -/
def FileFault.chain : FileFault → List String
  | unreadable path fault => ["Failed to read '" ++ path.display ++ "'", fault.message]
  | unwritable path fault => ["Failed to write '" ++ path.display ++ "'", fault.message]

/-- The statements found in one file. -/
structure ScanResult where
  /-- The path of the file from the root of the run. -/
  path : Path
  statements : List String
  deriving DecidableEq, Repr, Inhabited

namespace ScanResult

/-- The number of statements found. -/
def count (r : ScanResult) : Nat := r.statements.length

/-- Whether anything was found. -/
def hasMatches (r : ScanResult) : Bool := !r.statements.isEmpty

/-- The result for a file with the given text. -/
def ofText (path : Path) (text : String) : ScanResult := ⟨path, Statement.findAll text⟩

end ScanResult

/-- The totals of a run. -/
structure Summary where
  /-- The number of files looked at. -/
  scanned : Nat
  /-- The number of files with statements. -/
  withMatches : Nat
  /-- The number of statements. -/
  removed : Nat
  deriving DecidableEq, Repr, Inhabited

namespace Summary

/-- The totals of scan results, before anything is removed. -/
def ofScan (scanned : Nat) (results : List ScanResult) : Summary :=
  let found := results.filter (·.hasMatches)
  ⟨scanned, found.length, (found.map (·.count)).foldr (· + ·) 0⟩

/-- A summary as the log shows it. -/
def describe (s : Summary) : String :=
  "RunSummary \x7b files_scanned: " ++ toString s.scanned ++
  ", files_with_matches: " ++ toString s.withMatches ++
  ", total_matches_removed: " ++ toString s.removed ++ " \x7d"

end Summary

end ConsoleSweep
