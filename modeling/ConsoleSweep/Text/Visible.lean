/-!
# Visible text

A text that came from a user may hold characters that a terminal takes for commands. `visible` drops
them: control sequences, which start with an escape character, and single control characters. White
space stays.

## Shape of a control sequence

After the escape character a sequence is told apart by its next character: `[` starts parameters
that end at a letter, a few others start a string that ends at the next escape character, and the
rest end at once or after some punctuation.
-/

namespace ConsoleSweep.Visible

/-- Where the reading of a text stands. -/
inductive Place where
  /-- Outside every control sequence. -/
  | outside
  /-- After an escape character. -/
  | escape
  /-- After an escape character and punctuation. -/
  | punctuation
  /-- In the parameters of a sequence. -/
  | parameters
  /-- In a string that an alarm character may end. -/
  | title
  /-- In any other string. -/
  | string
  deriving DecidableEq, Repr, Inhabited

/-- The character that starts a control sequence. -/
def escapeChar : Char := '\x1b'

/-- Whether a control character is white space. -/
def isSpacing (c : Char) : Bool :=
  c == '\t' || c == '\n' || c == '\x0c' || c == '\r'

/-- Whether a character outside control sequences is shown. -/
def isShown (c : Char) : Bool :=
  (' ' ≤ c && c != '\x7f') || isSpacing c

/-- The place after a visible ASCII character of a control sequence. -/
def Place.advance : Place → Char → Place
  | outside, _ => outside
  | escape, c =>
    if c ≤ '/' then punctuation
    else if c == '[' then parameters
    else if c == ']' then title
    else if c == 'P' || c == 'X' || c == '^' || c == '_' then string
    else outside
  | punctuation, c => if c ≤ '/' then punctuation else outside
  | parameters, c => if c ≤ '?' then parameters else outside
  | title, _ => title
  | string, _ => string

/-- Takes a character: whether it is shown, and the place after it. -/
def Place.take (p : Place) (c : Char) : Bool × Place :=
  if c == escapeChar then (false, escape)
  else if c == '\x18' || c == '\x1a' then (false, outside)
  else if p == outside then (isShown c, outside)
  else if '\x7f' < c then (true, outside)
  else if c == '\x7f' then (false, p)
  else if c < ' ' then
    if p == title then (false, if c == '\x07' then outside else title)
    else if p == string then (false, string)
    else if isSpacing c then (true, outside)
    else (false, p)
  else (false, p.advance c)

/-- What is shown of the characters from a place on. -/
def shown : Place → List Char → List Char
  | _, [] => []
  | p, c :: rest =>
    match p.take c with
    | (true, next) => c :: shown next rest
    | (false, next) => shown next rest

end ConsoleSweep.Visible

namespace ConsoleSweep

/-- A text without what a terminal takes for commands. -/
def visible (text : String) : String := String.ofList (Visible.shown .outside text.toList)

end ConsoleSweep
