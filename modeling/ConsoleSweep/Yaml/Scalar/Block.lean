import ConsoleSweep.Yaml.Cursor

/-!
# Block scalars

A block scalar is a `|` or `>` and the indented lines after it. After `|` lines are kept; after `>`
they are folded, except around lines that start with a blank. A header says what becomes of the line
breaks at the end and, if need be, how far the lines are indented.
-/

namespace ConsoleSweep.Yaml.BlockScalar

/-- What becomes of the line breaks at the end. -/
inductive Chomping where
  | clip
  | strip
  | keep
  deriving DecidableEq, Repr, Inhabited

/-- What the header of a block scalar says. -/
structure Header where
  folded : Bool
  chomping : Chomping
  /-- How far the lines are indented; zero if the first line tells. -/
  indentation : Nat
  deriving DecidableEq, Repr, Inhabited

/-- The chomping that a character asks for. -/
def chomping? : Char → Option Chomping
  | '+' => some .keep
  | '-' => some .strip
  | _ => none

/-- The indentation that a digit asks for. -/
def increment? (c : Char) : Option Nat :=
  if c.isDigit then some (c.toNat - '0'.toNat) else none

/-- Reads chomping and indentation, which come in either order. -/
def readIndicators (start : Mark) (c : Cursor) : Except Fault (Chomping × Nat × Cursor) := do
  let chompingAt (c : Cursor) : Chomping × Cursor :=
    match c.rest.head?.bind chomping? with
    | some chomping => (chomping, c.skip 1)
    | none => (.clip, c)
  let incrementAt (c : Cursor) : Except Fault (Nat × Cursor) :=
    match c.rest.head?.bind increment? with
    | some 0 => .error (.within .zeroIndentation c.mark .blockScalar start)
    | some n => .ok (n, c.skip 1)
    | none => .ok (0, c)
  match c.rest.head?.bind chomping? with
  | some chomping =>
    let (increment, c) ← incrementAt (c.skip 1)
    return (chomping, increment, c)
  | none =>
    let (increment, c) ← incrementAt c
    if increment = 0 then return (.clip, 0, c)
    let (chomping, c) := chompingAt c
    return (chomping, increment, c)

/-- Reads the header, up to the start of the next line. `level` is how far the lines must be
indented at least. -/
def readHeader (level : Nat) (c : Cursor) : Except Fault (Header × Cursor) := do
  let (chomping, increment, after) ← readIndicators c.mark (c.skip 1)
  let (_, after) := after.span isGapBlank
  let after := if after.rest.head? = some '#' then (after.span fun d => !isLineBreak d).2 else after
  if atLineEnd after.rest then
    let indentation := if increment = 0 then 0 else level - 1 + increment
    return (⟨c.rest.head? = some '>', chomping, indentation⟩, after.skipLineBreak)
  else .error (.within .lineBreakMissing after.mark .blockScalar c.mark)

/-- Lines as they are read: `text` is what has been read, last first. -/
structure Lines where
  text : List Char
  /-- What the line break after the last line stands for. -/
  lineBreak : List Char
  /-- What the empty lines after it stand for. -/
  empty : List Char
  /-- Whether the last line starts with a blank. -/
  startsBlank : Bool
  deriving DecidableEq, Repr, Inhabited

namespace Lines

/-- No lines. -/
def none : Lines := ⟨[], [], [], false⟩

/-- The lines joined for the line that starts with `c`. -/
def join (l : Lines) (folded : Bool) (c : Char) : Lines :=
  let blank := isGapBlank c
  let between :=
    if folded && l.lineBreak == ['\n'] && !l.startsBlank && !blank then
      if l.empty = [] then [' '] else l.empty
    else l.lineBreak ++ l.empty
  ⟨between.reverse ++ l.text, [], [], blank⟩

/-- The text of all lines. -/
def close (l : Lines) (chomping : Chomping) : List Char :=
  l.text.reverse ++
    match chomping with
    | .strip => []
    | .clip => l.lineBreak
    | .keep => l.lineBreak ++ l.empty

end Lines

/-- Reads lines. `inLine` says whether a line has begun, and `deepest` is the widest indentation
among the lines before the first that is not empty. -/
def readFrom (h : Header) (level : Nat) (start : Mark) :
    (inLine : Bool) → (indentation deepest : Nat) → Lines → Mark → List Char →
      Except Fault ScalarText
  | _, _, _, lines, mark, [] => .ok ⟨lines.close h.chomping, false, ⟨[], mark⟩⟩
  | true, indentation, _, lines, mark, '\r' :: '\n' :: rest =>
    readFrom h level start false indentation 0 { lines with lineBreak := ['\n'] } (mark.nextLine 2)
      rest
  | true, indentation, _, lines, mark, c :: rest =>
    if isLineBreak c then
      readFrom h level start false indentation 0 { lines with lineBreak := lineBreakText c }
        (mark.nextLine 1) rest
    else
      readFrom h level start true indentation 0 { lines with text := c :: lines.text } mark.next
        rest
  | false, indentation, deepest, lines, mark, '\r' :: '\n' :: rest =>
    readFrom h level start false indentation (max deepest mark.column)
      { lines with empty := lines.empty ++ ['\n'] } (mark.nextLine 2) rest
  | false, indentation, deepest, lines, mark, c :: rest =>
    let below := indentation == 0 || mark.column < indentation
    if c == ' ' && below then readFrom h level start false indentation deepest lines mark.next rest
    else if c == '\t' && below then
      .error (.within .tabInIndentation mark .blockScalar start)
    else if isLineBreak c then
      readFrom h level start false indentation (max deepest mark.column)
        { lines with empty := lines.empty ++ lineBreakText c } (mark.nextLine 1) rest
    else
      let indentation :=
        if indentation = 0 then max 1 (max level (max deepest mark.column)) else indentation
      if mark.column = indentation then
        let lines := lines.join h.folded c
        readFrom h level start true indentation 0 { lines with text := c :: lines.text } mark.next
          rest
      else .ok ⟨lines.close h.chomping, false, ⟨c :: rest, mark⟩⟩

/-- Reads the scalar whose indicator is at a cursor. `level` is how far its lines must be indented
at least. -/
def read (level : Nat) (c : Cursor) : Except Fault ScalarText := do
  let (header, after) ← readHeader level c
  readFrom header level c.mark false header.indentation 0 .none after.mark after.rest

end ConsoleSweep.Yaml.BlockScalar
