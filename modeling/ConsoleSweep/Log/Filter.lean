import ConsoleSweep.Log.Basic
import ConsoleSweep.Text.Blank
import ConsoleSweep.Text.Indent
import ConsoleSweep.Text.Lowercase
import ConsoleSweep.Text.Parts
import ConsoleSweep.Text.Visible

/-!
# Which records are shown

A filter is a list of rules, read from a text such as `info,noconsole_core=off`. A rule says for the
sources whose names it starts, or for all of them, how important a record must be to be shown. The
rule with the longest name decides, and of rules with names of equal length the last; where no rule
applies nothing is shown.
-/

namespace ConsoleSweep.Log

/-- Says which records of some sources are shown. -/
structure Rule where
  /-- What the names of the sources start with; none for all sources. -/
  source : Option String
  /-- The least important level that is shown; none to show nothing. -/
  level : Option Level
  deriving DecidableEq, Repr, Inhabited

/-- The levels a rule can have, by name. -/
def Rule.levels : List (String × Option Level) :=
  [("off", none), ("error", some .error), ("warn", some .warn), ("info", some .info),
    ("debug", some .debug), ("trace", some .trace)]

/-- The level of a name, whatever its letter case. -/
def Rule.levelOf? (name : List Char) : Option (Option Level) :=
  (Rule.levels.find? (·.1 == asciiLowerCase (String.ofList name))).map (·.2)

/-- Reads one rule. A level alone is for all sources, a name alone shows everything of its
sources. -/
def Rule.read? (text : List Char) : Option Rule :=
  match partsAt '=' text with
  | [name] =>
    match Rule.levelOf? name with
    | some level => some ⟨none, level⟩
    | none => some ⟨some (String.ofList name), some .trace⟩
  | [name, level] =>
    match trimEnds isBlank level with
    | [] => some ⟨some (String.ofList name), some .trace⟩
    | level => (Rule.levelOf? level).map fun level => ⟨some (String.ofList name), level⟩
  | _ => none

/-- What a message about a text that is no rule shows of it: a level if that is at fault. -/
def Rule.culprit (text : List Char) : String :=
  match partsAt '=' text with
  | [_, level] => String.ofList (trimEnds isBlank level)
  | _ => String.ofList text

/-- The rules of a filter. -/
abbrev Filter := List Rule

namespace Filter

/-- Adds a rule, in place of the one for the same sources. -/
def put (filter : Filter) (rule : Rule) : Filter :=
  if filter.any (·.source == rule.source) then
    filter.map fun other => if other.source == rule.source then rule else other
  else filter ++ [rule]

/-- The texts of the rules in the text of a filter. -/
def texts (text : String) : List (List Char) :=
  ((partsAt ',' text.toList).map (trimEnds isBlank)).filter (· ≠ [])

/-- Reads a filter. What is no rule is left out. -/
def read (text : String) : Filter := ((texts text).filterMap Rule.read?).foldl put []

/-- The messages about what is no rule. -/
def warnings (text : String) : List String :=
  ((texts text).filter fun t => (Rule.read? t).isNone).map fun t =>
    "warning: invalid logging spec '" ++ Rule.culprit t ++ "', ignoring it\n"

/-- The rules that hold where none are given. -/
def orErrors (filter : Filter) : Filter := if filter.isEmpty then [⟨none, some .error⟩] else filter

/-- Whether a rule is about a source. -/
def covers (source : Source) (rule : Rule) : Bool :=
  rule.source.all fun start => start.toList.isPrefixOf source.name.toList

/-- The length of the name of a rule. -/
def weight (rule : Rule) : Nat := rule.source.elim 0 String.utf8ByteSize

/-- The rule that decides about a source. -/
def ruleFor? (filter : Filter) (source : Source) : Option Rule :=
  (filter.filter (covers source)).foldl
    (fun best rule => if best.all (fun b => weight b ≤ weight rule) then some rule else best) none

/-- Whether a record is shown. -/
def shows (filter : Filter) (record : Record) : Bool :=
  match (filter.ruleFor? record.source).bind (·.level) with
  | some level => record.level.rank ≤ level.rank
  | none => false

end Filter

/-- The tag of a record: its level, padded to five characters, and its source. -/
def Record.tag (r : Record) : String :=
  let name := r.level.name
  "[" ++ name ++ blanks (5 - name.length) ++ " " ++ r.source.name ++ "]"

/-- A record as it is shown: its tag and its text, in one line unless the text has several. -/
def Record.line (r : Record) : String := visible (r.tag ++ " " ++ hanging 4 r.text ++ "\n")

end ConsoleSweep.Log
