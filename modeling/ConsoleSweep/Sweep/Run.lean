import ConsoleSweep.Report
import ConsoleSweep.Sweep.Confirm
import ConsoleSweep.Sweep.Files

/-!
# A run

A run collects files, scans them all, reports what it found, asks, removes, and sums up. Nothing is
written before every file has been scanned and the user has agreed; a failure ends the run where it
happens, and files rewritten before it stay rewritten.
-/

namespace ConsoleSweep

/-- How a run ends that does not fail. -/
inductive Outcome where
  | nothingFound
  | cancelled
  | completed (summary : Summary)
  deriving DecidableEq, Repr, Inhabited

/-- An outcome as the log shows it. -/
def Outcome.describe : Outcome → String
  | nothingFound => "NothingFound"
  | cancelled => "Cancelled"
  | completed summary => "Completed(" ++ summary.describe ++ ")"

/-- What a run is given besides the world. -/
structure Setup where
  options : Options
  palette : Palette
  confirmer : Confirmer
  others : Interference

namespace Setup

open ConsoleSweep.Action

/-- Collects the files of the run. -/
def collectFiles (s : Setup) : Sweep (List Path) := do
  let collection := Collection.run s.options (← get).tree
  logAll (collection.records s.options)
  match collection.stopped with
  | some fault => throw (.collecting s.options.root fault)
  | none => return collection.files

/-- Scans files, keeping the results of those with statements. -/
def scanAll (s : Setup) : List Path → Sweep (List ScanResult)
  | [] => return []
  | file :: rest => do
    let result ← (scanFile s.others s.options.root file).within (.scanning file)
    if result.hasMatches then
      log .debug .run (file.display ++ ": " ++ toString result.count ++ " match(es)")
      return result :: (← s.scanAll rest)
    else
      s.scanAll rest

/-- Puts the question to the user. -/
def ask (s : Setup) (summary : Summary) : Sweep Bool := do
  let question := Report.prompt s.palette summary
  modify fun w => { w with asked := w.asked ++ [⟨question, true⟩] }
  s.confirmer.confirm question true

/-- Removes the statements of one file and reports it. -/
def removeOne (s : Setup) (result : ScanResult) : Sweep Nat := do
  let removed ← (removeStatements s.others s.options.root result s.options.dryRun).within
    (.removing result.path)
  if s.options.dryRun then return removed
  report (Report.removed s.palette result.path removed)
  return removed

/-- Removes the statements of files, and gives their number. -/
def removeAll (s : Setup) : List ScanResult → Sweep Nat
  | [] => return 0
  | result :: rest => do
    let removed ← s.removeOne result
    return removed + (← s.removeAll rest)

/-- The run after the scan: report, question, removal and totals. -/
def finishRun (s : Setup) (scanned : Nat) (results : List ScanResult) : Sweep Outcome := do
  let found := Summary.ofScan scanned results
  for result in results do
    report (Report.file s.palette result s.options.dryRun)
  report (Report.scanSummary s.palette found)
  let agreed ← if s.options.dryRun then pure true else s.ask found
  if agreed then
    let removed ← s.removeAll results
    let summary : Summary := ⟨scanned, results.length, removed⟩
    report (Report.finalSummary s.palette summary s.options.dryRun)
    log .info .run ("noconsole run completed: " ++ summary.describe)
    return .completed summary
  else
    log .info .run "User declined; no files modified."
    report (Report.cancelled s.palette)
    return .cancelled

/-- The run. -/
def run (s : Setup) : Sweep Outcome := do
  log .info .run ("Starting noconsole run in " ++ s.options.root.display ++ " (dry run: " ++
    toString s.options.dryRun ++ ").")
  let files ← s.collectFiles
  let results ← s.scanAll files
  if results.isEmpty then
    log .debug .run ("Scanned " ++ toString files.length ++ " file(s), nothing to remove.")
    report (Report.nothingFound s.palette)
    return .nothingFound
  else
    s.finishRun files.length results

end Setup

end ConsoleSweep
