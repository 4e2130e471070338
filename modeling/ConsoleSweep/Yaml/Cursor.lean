import ConsoleSweep.Yaml.Fault

/-!
# Reading position and white space

A cursor is what is left of a text together with its position. `Gap` collects the white space
between two words of a scalar: blanks in one line stay as they are, one line break becomes a blank,
and of several line breaks the first is dropped.
-/

namespace ConsoleSweep.Yaml

/-- Whether a character separates words within a line. -/
def isGapBlank (c : Char) : Bool := c == ' ' || c == '\t'

/-- Whether a character ends a line. -/
def isLineBreak (c : Char) : Bool :=
  c == '\n' || c == '\r' || c == '\u0085' || c == '\u2028' || c == '\u2029'

/-- Whether the text ends here or goes on with white space. -/
def atSpace (cs : List Char) : Bool := cs.head?.all fun c => isGapBlank c || isLineBreak c

/-- Whether the text ends here or goes on with a line break. -/
def atLineEnd (cs : List Char) : Bool := cs.head?.all isLineBreak

/-- Whether three times `c` stand here as a word, as `---` and `...` do between documents. -/
def atMarker (c : Char) : List Char → Bool
  | a :: b :: d :: rest => a == c && b == c && d == c && atSpace rest
  | _ => false

/-- Whether a line starts here with a marker between documents. -/
def atDocumentMarker (mark : Mark) (cs : List Char) : Bool :=
  mark.column == 0 && (atMarker '-' cs || atMarker '.' cs)

/-- Whether a character may stand in the name of an anchor. -/
def isNameChar (c : Char) : Bool := c.isAlphanum || c == '_' || c == '-'

/-- The value of a hexadecimal digit. -/
def hexDigit? (c : Char) : Option Nat :=
  if c.isDigit then some (c.toNat - '0'.toNat)
  else if 'a' ≤ c && c ≤ 'f' then some (c.toNat - 'a'.toNat + 10)
  else if 'A' ≤ c && c ≤ 'F' then some (c.toNat - 'A'.toNat + 10)
  else none

/-- The characters that a line break stands for in a scalar. -/
def lineBreakText (c : Char) : List Char :=
  if c == '\u2028' || c == '\u2029' then [c] else ['\n']

/-- What is left of a text, and its position. -/
structure Cursor where
  rest : List Char
  mark : Mark
  deriving DecidableEq, Repr, Inhabited

namespace Cursor

/-- The cursor after so many characters, none of which ends a line. -/
def skip (c : Cursor) : Nat → Cursor
  | 0 => c
  | n + 1 => skip ⟨c.rest.drop 1, c.mark.next⟩ n

/-- The characters from here on that satisfy `p`, and the cursor after them. No character that ends
a line may satisfy `p`. -/
def span (c : Cursor) (p : Char → Bool) : List Char × Cursor :=
  let run := c.rest.takeWhile p
  (run, c.skip run.length)

/-- The cursor after a line break, if there is one here. -/
def skipLineBreak (c : Cursor) : Cursor :=
  match c.rest with
  | '\r' :: '\n' :: rest => ⟨rest, c.mark.nextLine 2⟩
  | a :: rest => if isLineBreak a then ⟨rest, c.mark.nextLine 1⟩ else c
  | [] => c

end Cursor

/-- White space between two words of a scalar. -/
structure Gap where
  /-- The blanks before the first line break, last first. -/
  blanks : List Char
  /-- What the first line break stands for; none if there is no line break. -/
  first : Option (List Char)
  /-- What the other line breaks stand for. -/
  later : List Char
  deriving DecidableEq, Repr, Inhabited

namespace Gap

/-- No white space. -/
def none : Gap := ⟨[], .none, []⟩

/-- A line break that stands for nothing. -/
def joined : Gap := ⟨[], some [], []⟩

/-- Whether a line ends in the gap. -/
def isBroken (g : Gap) : Bool := g.first.isSome

/-- Adds a blank. One after a line break does not count. -/
def addBlank (g : Gap) (c : Char) : Gap :=
  if g.isBroken then g else { g with blanks := c :: g.blanks }

/-- Adds a line break. Blanks before it do not count. -/
def addLineBreak (g : Gap) (c : Char) : Gap :=
  match g.first with
  | .none => ⟨[], some (lineBreakText c), g.later⟩
  | some _ => { g with later := g.later ++ lineBreakText c }

/-- What the gap stands for. -/
def text (g : Gap) : List Char :=
  match g.first with
  | .none => g.blanks.reverse
  | some first =>
    if first = ['\n'] then (if g.later = [] then [' '] else g.later) else first ++ g.later

end Gap

/-- The text of a scalar, the cursor after it, and whether a line ends in the white space that was
read after its last word. -/
structure ScalarText where
  text : List Char
  endsLine : Bool
  after : Cursor
  deriving DecidableEq, Repr, Inhabited

end ConsoleSweep.Yaml
