import ConsoleSweep.Yaml.Cursor

/-!
# Plain scalars

of brackets, where a line is not indented enough; within brackets it also ends at their punctuation.
of brackets, where a line is not indented enough; within brackets it also ends at their
-/

namespace ConsoleSweep.Yaml.PlainScalar

/-- Where in a scalar a character stands. -/
inductive Place where
  | start
  | word
  | gap
  deriving DecidableEq, Repr, Inhabited

/-- Where a scalar stands: whether within brackets, how far its lines must be indented, and its
first character. -/
structure Setting where
  bracketed : Bool
  indentation : Nat
  start : Mark
  deriving DecidableEq, Repr, Inhabited

/-- The punctuation of brackets. -/
def isPunctuation (c : Char) : Bool :=
  c == ',' || c == '[' || c == ']' || c == '\x7b' || c == '\x7d'

/-- Whether the scalar ends before a character because of where the character stands: on a line that
is not indented enough, at a marker between documents, or as the start of a comment. -/
def endsByPlace (s : Setting) (place : Place) (mark : Mark) (c : Char) (rest : List Char) : Bool :=
  (place == .gap && !s.bracketed && mark.column < s.indentation) ||
    (place != .word && (atDocumentMarker mark (c :: rest) || c == '#'))

/-- Whether a colon within brackets neither belongs to the scalar nor starts a value. -/
def isStrayColon (s : Setting) (c : Char) (rest : List Char) : Bool :=
  s.bracketed && c == ':' && rest.head?.any fun d => d == '?' || isPunctuation d

/-- Whether the scalar ends before a character because of what the character is. -/
def endsBySign (s : Setting) (c : Char) (rest : List Char) : Bool :=
  (c == ':' && atSpace rest) || (s.bracketed && isPunctuation c)

/-- Reads on. `text` is what has been read, last first, without the white space in `gap`. -/
def readFrom (s : Setting) :
    Place → List Char → Gap → Mark → List Char → Except Fault ScalarText
  | _, text, gap, mark, [] => .ok ⟨text.reverse, gap.isBroken, ⟨[], mark⟩⟩
  | _, text, gap, mark, '\r' :: '\n' :: rest =>
    readFrom s .gap text (gap.addLineBreak '\n') (mark.nextLine 2) rest
  | place, text, gap, mark, c :: rest =>
    if isLineBreak c then readFrom s .gap text (gap.addLineBreak c) (mark.nextLine 1) rest
    else if isGapBlank c then
      if gap.isBroken && mark.column < s.indentation && c == '\t' then
        .error (.within .tabBelowIndentation mark .plainScalar s.start)
      else readFrom s .gap text (gap.addBlank c) mark.next rest
    else if endsByPlace s place mark c rest then
      .ok ⟨text.reverse, gap.isBroken, ⟨c :: rest, mark⟩⟩
    else if isStrayColon s c rest then .error (.within .strayColon mark .plainScalar s.start)
    else if endsBySign s c rest then .ok ⟨text.reverse, gap.isBroken, ⟨c :: rest, mark⟩⟩
    else readFrom s .word (c :: (gap.text.reverse ++ text)) .none mark.next rest

/-- Reads the scalar that starts at a cursor. -/
def read (bracketed : Bool) (indentation : Nat) (c : Cursor) : Except Fault ScalarText :=
  readFrom ⟨bracketed, indentation, c.mark⟩ .start [] .none c.mark c.rest

end ConsoleSweep.Yaml.PlainScalar
