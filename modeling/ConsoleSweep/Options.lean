import ConsoleSweep.Path
import ConsoleSweep.Text.Blank
import ConsoleSweep.Text.Quoted

/-!
# Options of a run

Which files a run looks at and whether it changes them: a root directory, a file pattern, names of
directories to leave out, and whether it is a dry run. Options are built once, by adding to the
defaults, and then only read.

The names to leave out become globs in `excludeGlobs`: the built-in names first, then the given ones
in order, each once.
-/

namespace ConsoleSweep

/-- What a run looks at and whether it changes it. -/
structure Options where
  root : Path
  pattern : String
  dryRun : Bool
  exclude : List String
  deriving DecidableEq, Repr, Inhabited

namespace Options

/-- The pattern of a run that is given none. -/
def defaultPattern : String := "**/*.\x7bjs,jsx,ts,tsx\x7d"

/-- The names of directories that every run leaves out. -/
def builtinExcludes : List String := ["node_modules", "dist", "build"]

/-- The options of a run that is given nothing but its root. -/
def ofRoot (root : Path) : Options := ⟨root, defaultPattern, false, []⟩

/-- Replaces the file pattern. -/
def withPattern (o : Options) (pattern : String) : Options := { o with pattern }

/-- Says whether the run is a dry run. -/
def withDryRun (o : Options) (dryRun : Bool) : Options := { o with dryRun }

/-- Adds names to leave out. -/
def withExcludes (o : Options) (names : List String) : Options :=
  { o with exclude := o.exclude ++ names }

/-- The name a given exclusion stands for: blanks, then separators are dropped from both ends.
Nothing left means no name. -/
def excludedName? (given : String) : Option (List Char) :=
  match trimEnds (· == '/') (trimEnds isBlank given.toList) with
  | [] => none
  | name => some name

/-- The glob for everything below a directory of the given name, at any depth. -/
def globFor (name : List Char) : String :=
  String.ofList (['*', '*', '/'] ++ name ++ ['/', '*', '*'])

/-- The elements of a list, each at its first occurrence only. -/
def firstOccurrences (xs : List String) : List String :=
  xs.foldl (fun seen x => if x ∈ seen then seen else seen ++ [x]) []

/-- The globs of everything a run leaves out. -/
def excludeGlobs (o : Options) : List String :=
  firstOccurrences ((builtinExcludes ++ o.exclude).filterMap excludedName? |>.map globFor)

/-- Options as the log shows them. -/
def describe (o : Options) : String :=
  "RunOptions \x7b root_directory: " ++ Quoted.bytes o.root.bytes ++
  ", file_pattern: " ++ Quoted.text o.pattern ++
  ", dry_run: " ++ toString o.dryRun ++
  ", exclude_patterns: " ++ Quoted.list o.exclude ++ " \x7d"

end Options

end ConsoleSweep
