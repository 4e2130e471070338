import ConsoleSweep.ScanResult
import ConsoleSweep.Theme.Basic

/-!
# The report

What a run tells the user, section by section. Each section is a text that ends its last line; the
order of the sections is that of the run.
-/

namespace ConsoleSweep.Report

/-- One file and what was found in it. A dry run lists the statements, any other run their
number. -/
def file (p : Palette) (r : ScanResult) (dryRun : Bool) : String :=
  let name := p.paint r.path.display .fileName
  if dryRun then
    "\nFile: " ++ name ++ "\n" ++
      String.join (r.statements.map fun statement =>
        "  Would remove: " ++ p.paint statement .wouldRemove ++ "\n")
  else
    name ++ ": " ++ p.paint (toString r.count) .matchCount ++ " console statement(s)\n"

/-- The totals of the scan. -/
def scanSummary (p : Palette) (s : Summary) : String :=
  "\n" ++ p.line ("Found " ++ toString s.removed ++ " console statement(s) in " ++
    toString s.withMatches ++ " of " ++ toString s.scanned ++ " file(s).") .info

/-- That there is nothing to remove. -/
def nothingFound (p : Palette) : String := p.line "No console statements found." .info

/-- That the user declined. -/
def cancelled (p : Palette) : String :=
  p.line "Operation cancelled. No files were modified." .warn

/-- That statements were removed from a file. -/
def removed (p : Palette) (path : Path) (count : Nat) : String :=
  p.line ("Removed " ++ toString count ++ " console statements from " ++ path.display) .success

/-- The totals of the run. -/
def finalSummary (p : Palette) (s : Summary) (dryRun : Bool) : String :=
  "\n" ++ p.line "Summary:" .header ++
  "Files processed: " ++ toString s.scanned ++ "\n" ++
  "Files containing console statements: " ++ toString s.withMatches ++ "\n" ++
  "Total console statements " ++ (if dryRun then "that would be " else "") ++ "removed: " ++
    p.paint (toString s.removed) .matchCount ++ "\n" ++
  if dryRun then "\n" ++ p.line "This was a dry run. No files were modified." .info else ""

/-- The question put to the user before anything is rewritten. -/
def question (s : Summary) : String :=
  "Remove " ++ toString s.removed ++ " console statement(s) from " ++
    toString s.withMatches ++ " file(s)?"

/-- The question as it is shown. -/
def prompt (p : Palette) (s : Summary) : String := p.paint (question s) .prompt

end ConsoleSweep.Report
