import ConsoleSweep.Yaml.Cursor

/-!
# Quoted scalars

Lines are folded as in plain scalars, except that white space before the closing quote counts.
Lines are folded as in plain scalars, except that white space before the closing quote
-/

namespace ConsoleSweep.Yaml.QuotedScalar

/-- What an escaped character stands for. -/
inductive Escape where
  | char (c : Char)
  /-- So many hexadecimal digits follow. -/
  | code (digits : Nat)
  deriving DecidableEq, Repr, Inhabited

/-- The escape of a letter. -/
def Escape.ofLetter? : Char → Option Escape
  | '0' => some (.char '\x00')
  | 'a' => some (.char '\x07')
  | 'b' => some (.char '\x08')
  | 't' => some (.char '\t')
  | '\t' => some (.char '\t')
  | 'n' => some (.char '\n')
  | 'v' => some (.char '\x0b')
  | 'f' => some (.char '\x0c')
  | 'r' => some (.char '\r')
  | 'e' => some (.char '\x1b')
  | ' ' => some (.char ' ')
  | '"' => some (.char '"')
  | '/' => some (.char '/')
  | '\\' => some (.char '\\')
  | 'N' => some (.char '\u0085')
  | '_' => some (.char '\u00a0')
  | 'L' => some (.char '\u2028')
  | 'P' => some (.char '\u2029')
  | 'x' => some (.code 2)
  | 'u' => some (.code 4)
  | 'U' => some (.code 8)
  | _ => none

/-- Whether a number is the code point of a character. -/
def isCodePoint (n : Nat) : Bool := n < 0xD800 || (0xDFFF < n && n ≤ 0x10FFFF)

/-- What the next character is part of. -/
inductive Part where
  | content
  /-- A backslash stands before it. -/
  | escape
  /-- The digits of a code point: how many are missing, their value so far, and where they start. -/
  | code (missing value : Nat) (start : Mark)
  deriving DecidableEq, Repr, Inhabited

/-- Reads on between double quotes. `text` is what has been read, last first, without the white
space in `gap`. -/
def doubleFrom (start : Mark) :
    Part → List Char → Gap → Mark → List Char → Except Fault ScalarText
  | .code _ _ digits, _, _, _, [] => .error (.within .badHexadecimal digits .escape start)
  | .code missing value digits, text, gap, mark, c :: rest =>
    match hexDigit? c with
    | none => .error (.within .badHexadecimal digits .escape start)
    | some d =>
      let value := value * 16 + d
      if 1 < missing then
        doubleFrom start (.code (missing - 1) value digits) text gap mark.next rest
      else if isCodePoint value then
        doubleFrom start .content (Char.ofNat value :: text) gap mark.next rest
      else .error (.within .badCodePoint digits .escape start)
  | .escape, _, _, mark, [] =>
    .error (.within .unknownEscape ⟨mark.index - 1, mark.line, mark.column - 1⟩ .escape start)
  | .escape, text, _, mark, '\r' :: '\n' :: rest =>
    doubleFrom start .content text .joined (mark.nextLine 2) rest
  | .escape, text, gap, mark, c :: rest =>
    if isLineBreak c then doubleFrom start .content text .joined (mark.nextLine 1) rest
    else
      match Escape.ofLetter? c with
      | some (.char d) => doubleFrom start .content (d :: text) gap mark.next rest
      | some (.code digits) => doubleFrom start (.code digits 0 mark.next) text gap mark.next rest
      | none =>
        .error (.within .unknownEscape ⟨mark.index - 1, mark.line, mark.column - 1⟩ .escape start)
  | .content, _, _, mark, [] => .error (.within .endInQuotes mark .quotedScalar start)
  | .content, text, gap, mark, '\r' :: '\n' :: rest =>
    doubleFrom start .content text (gap.addLineBreak '\n') (mark.nextLine 2) rest
  | .content, text, gap, mark, c :: rest =>
    if isLineBreak c then
      doubleFrom start .content text (gap.addLineBreak c) (mark.nextLine 1) rest
    else if isGapBlank c then doubleFrom start .content text (gap.addBlank c) mark.next rest
    else if atDocumentMarker mark (c :: rest) then
      .error (.within .documentInQuotes mark .quotedScalar start)
    else
      let text := gap.text.reverse ++ text
      if c == '"' then .ok ⟨text.reverse, false, ⟨rest, mark.next⟩⟩
      else if c == '\\' then doubleFrom start .escape text .none mark.next rest
      else doubleFrom start .content (c :: text) .none mark.next rest

/-- Reads on between single quotes, as `doubleFrom` does between double quotes. -/
def singleFrom (start : Mark) : List Char → Gap → Mark → List Char → Except Fault ScalarText
  | _, _, mark, [] => .error (.within .endInQuotes mark .quotedScalar start)
  | text, gap, mark, '\r' :: '\n' :: rest =>
    singleFrom start text (gap.addLineBreak '\n') (mark.nextLine 2) rest
  | text, gap, mark, '\'' :: '\'' :: rest =>
    singleFrom start ('\'' :: (gap.text.reverse ++ text)) .none mark.next.next rest
  | text, gap, mark, c :: rest =>
    if isLineBreak c then singleFrom start text (gap.addLineBreak c) (mark.nextLine 1) rest
    else if isGapBlank c then singleFrom start text (gap.addBlank c) mark.next rest
    else if atDocumentMarker mark (c :: rest) then
      .error (.within .documentInQuotes mark .quotedScalar start)
    else
      let text := gap.text.reverse ++ text
      if c == '\'' then .ok ⟨text.reverse, false, ⟨rest, mark.next⟩⟩
      else singleFrom start (c :: text) .none mark.next rest

/-- Reads the scalar that starts with the quote at a cursor. -/
def read (c : Cursor) : Except Fault ScalarText :=
  match c.rest with
  | '"' :: rest => doubleFrom c.mark .content [] .none c.mark.next rest
  | rest => singleFrom c.mark [] .none c.mark.next (rest.drop 1)

end ConsoleSweep.Yaml.QuotedScalar
