import ConsoleSweep.Glob.Engine
import ConsoleSweep.Glob.Matching
import ConsoleSweep.Glob.Reading
import ConsoleSweep.Options

/-!
# Selection of files

A selection is an ordered list of lines, each a glob that selects or rejects what it matches; the
last line that matches decides. A run selects with its file pattern and then rejects with its
exclusion globs, so an exclusion always wins.

A line is read before its glob is: `#` at its start makes it a comment, `!` turns it round, `/` at
its start ties it to the root, and `/` at its end keeps it to directories. A line with no `/` in it
would match at any depth, so the file pattern gets a leading one.
-/

namespace ConsoleSweep

/-- One line of a selection. -/
structure Line where
  glob : List Glob.Token
  /-- Whether the line selects what it matches, rather than rejecting it. -/
  selects : Bool
  dirsOnly : Bool
  deriving Repr, Inhabited

/-- Why a selection cannot be built. -/
inductive BadSelection where
  /-- The glob of a line is malformed. -/
  | line (text : String) (fault : Glob.Malformed)
  /-- The matching engine refuses a glob. -/
  | engine (refusal : Glob.Refusal)
  deriving DecidableEq, Repr

/-- The reason in words. -/
def BadSelection.message : BadSelection → String
  | line text fault => "error parsing glob '" ++ text ++ "': " ++ fault.message
  | engine refusal => refusal.message

namespace Line

/-- A line without the blanks at its end, unless the last of them is escaped. -/
def trimmed (text : List Char) : List Char :=
  if ['\\', ' '].isSuffixOf text then text else trimRight isBlank text

/-- Drops a character from the front of a text that starts with it, and says whether it did. -/
def dropLeading (c : Char) : List Char → Bool × List Char
  | first :: rest => if first = c then (true, rest) else (false, first :: rest)
  | [] => (false, [])

/-- Drops a separator from the end of a text, with the backslash that escapes it, and says whether
it did. -/
def dropTrailingSlash (text : List Char) : Bool × List Char :=
  match text.reverse with
  | '/' :: '\\' :: rest => (true, rest.reverse)
  | '/' :: rest => (true, rest.reverse)
  | _ => (false, text)

/-- Whether a glob may already match at any depth. -/
def anyDepth (glob : List Char) : Bool := ['*', '*', '/'].isPrefixOf glob || glob == ['*', '*']

/-- The glob that a line stands for: at any depth unless it is tied to the root or has a separator,
and for `/**` at its end only what is inside. -/
def spelled (tied : Bool) (glob : List Char) : List Char :=
  let placed := if tied || '/' ∈ glob || anyDepth glob then glob else ['*', '*', '/'] ++ glob
  if ['/', '*', '*'].isSuffixOf placed then placed ++ ['/', '*'] else placed

/-- Reads a line. Comments and blank lines are no lines. -/
def read (text : List Char) : Except BadSelection (Option Line) :=
  let line := trimmed text
  if text.head? == some '#' || line.isEmpty then .ok none
  else
    let escaped := ['\\', '!'].isPrefixOf line || ['\\', '#'].isPrefixOf line
    let (rejects, rest) := if escaped then (false, line.drop 1) else dropLeading '!' line
    let (tied, rest) := if escaped then (false, rest) else dropLeading '/' rest
    let (dirsOnly, rest) := dropTrailingSlash rest
    match Glob.parse (spelled tied rest) with
    | .ok glob => .ok (some ⟨glob, !rejects, dirsOnly⟩)
    | .error fault => .error (.line (String.ofList line) fault)

/-- Whether a line has a say about a path. -/
def applies (line : Line) (path : Bytes) (isDir : Bool) : Bool :=
  (!line.dirsOnly || isDir) && Glob.accepts line.glob path

end Line

/-- What a selection says about a path. -/
inductive Verdict where
  | selected
  | rejected
  | unmentioned
  deriving DecidableEq, Repr

/-- An ordered list of lines. -/
structure Selection where
  lines : List Line
  deriving Repr, Inhabited

namespace Selection

/-- The verdict on a path: that of the last line that applies. A file that no line mentions is
rejected if some line selects. -/
def verdict (s : Selection) (path : Bytes) (isDir : Bool) : Verdict :=
  match s.lines.reverse.find? (·.applies path isDir) with
  | some line => if line.selects then .selected else .rejected
  | none => if !isDir && s.lines.any (·.selects) then .rejected else .unmentioned

/-- The file pattern as a line: `./` at its start is dropped, and a pattern without a separator is
tied to the root. -/
def anchored (pattern : List Char) : List Char :=
  let bare := if ['.', '/'].isPrefixOf pattern then pattern.drop 2 else pattern
  if '/' ∈ bare then bare else '/' :: bare

/-- The lines for an exclusion glob: everything it matches, and for everything below a directory the
directory too, so that it is not entered. -/
def exclusionLines (glob : List Char) : List (List Char) :=
  if ['*', '*'].isSuffixOf glob then [['!'] ++ glob, ['!'] ++ glob.dropLast.dropLast]
  else [['!'] ++ glob]

/-- The selection of a file pattern and exclusion globs, or the glob that is to blame and the
reason. A refusal of the engine is blamed on the file pattern. -/
def build (pattern : String) (excludeGlobs : List String) :
    Except (String × BadSelection) Selection := do
  let blame (culprit : String) (result : Except BadSelection (Option Line)) :=
    result.mapError fun fault => (culprit, fault)
  let first ← blame pattern (Line.read (anchored pattern.toList))
  let rest ← excludeGlobs.mapM fun glob =>
    (exclusionLines glob.toList).mapM fun line => blame glob (Line.read line)
  let lines := (first :: rest.flatten).filterMap id
  match Glob.refused? (lines.map (·.glob)) with
  | some refusal => throw (pattern, .engine refusal)
  | none => return ⟨lines⟩

/-- The selection of a run. -/
def ofOptions (o : Options) : Except (String × BadSelection) Selection :=
  build o.pattern o.excludeGlobs

end Selection

end ConsoleSweep
