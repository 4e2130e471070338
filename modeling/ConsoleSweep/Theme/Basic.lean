import ConsoleSweep.Theme.Color

/-!
# Themes

A theme gives the parts of the report their colours. A palette is a theme together with the decision
whether to use colours at all.
-/

namespace ConsoleSweep

/-- A part of the report that can have a colour. -/
inductive Entry where
  /-- Titles such as `Summary:`. -/
  | header
  /-- Messages that files were rewritten. -/
  | success
  | info
  | warn
  | error
  /-- Paths of files. -/
  | fileName
  /-- Numbers of statements. -/
  | matchCount
  /-- Statements listed by a dry run. -/
  | wouldRemove
  /-- The question put to the user. -/
  | prompt
  deriving DecidableEq, Repr, Inhabited

namespace Entry

/-- Every entry. -/
def all : List Entry :=
  [header, success, info, warn, error, fileName, matchCount, wouldRemove, prompt]

/-- The name of an entry in a theme file. -/
def name : Entry → String
  | header => "header"
  | success => "success"
  | info => "info"
  | warn => "warn"
  | error => "error"
  | fileName => "file_name"
  | matchCount => "match_count"
  | wouldRemove => "would_remove"
  | prompt => "prompt"

/-- The entry of a name. Letter case matters. -/
def ofName? (name : String) : Option Entry := all.find? (·.name == name)

end Entry

/-- The colour of each entry; none where an entry is shown as it is. -/
abbrev Theme := Entry → Option Color

namespace Theme

/-- The theme that is used unless another is given. -/
def standard : Theme
  | .header => some ⟨"brightwhite"⟩
  | .success => some ⟨"green"⟩
  | .info => some ⟨"white"⟩
  | .warn => some ⟨"yellow"⟩
  | .error => some ⟨"red"⟩
  | .fileName => some ⟨"cyan"⟩
  | .matchCount => some ⟨"brightyellow"⟩
  | .wouldRemove => some ⟨"brightblack"⟩
  | .prompt => some ⟨"brightmagenta"⟩

/-- A theme with some entries changed; of two changes to one entry the later holds. -/
def override (theme : Theme) (changes : List (Entry × Option Color)) : Theme := fun entry =>
  match changes.reverse.find? (·.1 == entry) with
  | some (_, color) => color
  | none => theme entry

end Theme

/-- A theme, and whether to use its colours. -/
structure Palette where
  theme : Theme
  colored : Bool

namespace Palette

/-- A text as it is shown for an entry. -/
def paint (p : Palette) (text : String) (entry : Entry) : String :=
  if p.colored then
    match p.theme entry with
    | some color => color.paint text
    | none => text
  else text

/-- A line of text for an entry. -/
def line (p : Palette) (text : String) (entry : Entry) : String := p.paint text entry ++ "\n"

end Palette

end ConsoleSweep
