import ConsoleSweep.Text.Lowercase

/-!
# Colours

The sixteen colours of a terminal, by name. A colour of a theme is a name; one that names no
terminal colour is shown white, which cannot happen to a name that has been checked.
-/

namespace ConsoleSweep

/-- A colour of the terminal. -/
inductive TerminalColor where
  | black | red | green | yellow | blue | magenta | cyan | white
  | brightBlack | brightRed | brightGreen | brightYellow
  | brightBlue | brightMagenta | brightCyan | brightWhite
  deriving DecidableEq, Repr, Inhabited

namespace TerminalColor

/-- Every colour of the terminal, in the order of their codes. -/
def all : List TerminalColor :=
  [black, red, green, yellow, blue, magenta, cyan, white,
    brightBlack, brightRed, brightGreen, brightYellow,
    brightBlue, brightMagenta, brightCyan, brightWhite]

/-- The name of a colour. -/
def name : TerminalColor → String
  | black => "black"
  | red => "red"
  | green => "green"
  | yellow => "yellow"
  | blue => "blue"
  | magenta => "magenta"
  | cyan => "cyan"
  | white => "white"
  | brightBlack => "brightblack"
  | brightRed => "brightred"
  | brightGreen => "brightgreen"
  | brightYellow => "brightyellow"
  | brightBlue => "brightblue"
  | brightMagenta => "brightmagenta"
  | brightCyan => "brightcyan"
  | brightWhite => "brightwhite"

/-- The code that switches the terminal to a colour. -/
def code : TerminalColor → Nat
  | black => 30
  | red => 31
  | green => 32
  | yellow => 33
  | blue => 34
  | magenta => 35
  | cyan => 36
  | white => 37
  | brightBlack => 90
  | brightRed => 91
  | brightGreen => 92
  | brightYellow => 93
  | brightBlue => 94
  | brightMagenta => 95
  | brightCyan => 96
  | brightWhite => 97

/-- The colour of a name, in lower case. -/
def ofName? (name : String) : Option TerminalColor := all.find? (·.name == name)

end TerminalColor

/-- A colour of a theme, by name. -/
structure Color where
  name : String
  deriving DecidableEq, Repr, Inhabited

namespace Color

/-- The names that a theme may give its colours. -/
def names : List String :=
  ["black", "red", "green", "yellow", "blue", "magenta", "cyan", "white",
    "brightblack", "brightred", "brightgreen", "brightyellow",
    "brightblue", "brightmagenta", "brightcyan", "brightwhite"]

/-- The colour a text names, whatever its letter case, if that is the name of one. -/
def parse? (text : String) : Option Color :=
  let name := lowerCase text
  if name ∈ names then some ⟨name⟩ else none

/-- The terminal colour for a colour. -/
def terminal (c : Color) : TerminalColor :=
  (TerminalColor.ofName? (lowerCase c.name)).getD .white

/-- What is said about a text that names no colour. -/
def complaint : String :=
  "Invalid theme color; expected one of: " ++ ", ".intercalate names ++ "."

/-- A text in a colour: switched on before it, and back to the default after it. -/
def paint (c : Color) (text : String) : String :=
  "\x1b[" ++ toString c.terminal.code ++ "m" ++ text ++ "\x1b[39m"

end Color

end ConsoleSweep
