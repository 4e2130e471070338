import ConsoleSweep.Text.Utf8
import ConsoleSweep.Yaml.Cursor

/-!
# Anchors and tags

An anchor names a node, and an alias stands for the node named. A tag says what kind of node
follows: `!kind` is a tag of the text's own, `!!kind` one that every text shares, and `!<...>` gives
a tag in full. Escapes may put any bytes into a tag, so tags are bytes.
-/

namespace ConsoleSweep.Yaml

/-- Reads the name after the sign of an anchor or alias. -/
def readName (context : Context) (c : Cursor) : Except Fault (String × Cursor) :=
  let (name, after) := (c.skip 1).span isNameChar
  let ends := atSpace after.rest ||
    after.rest.head?.any fun d =>
      d == '?' || d == ':' || d == ',' || d == ']' || d == '\x7d' || d == '%' || d == '@' ||
        d == '\u0060'
  if name ≠ [] && ends then .ok (String.ofList name, after)
  else .error (.within .badAnchor after.mark context c.mark)

namespace Tag

/-- A tag that every text shares. -/
def shared (name : String) : Bytes := Utf8.encode ("tag:yaml.org,2002:" ++ name)

/-- The name of a tag of the text's own. -/
def localName? (tag : Bytes) : Option String :=
  match tag with
  | [] => none
  | 0x21 :: [] => some "!"
  | b :: rest => if b = 0x21 then Utf8.decode? rest else none

/-- Whether a character may stand in a tag. In a tag given in full more may. -/
def isTagChar (full : Bool) (c : Char) : Bool :=
  isNameChar c || [';', '/', '?', ':', '@', '&', '=', '+', '$', '.', '%', '!', '~', '*', '\'', '(',
    ')'].contains c || (full && [',', '[', ']'].contains c)

/-- How many bytes a character has that starts with the given byte. -/
def width? (b : Nat) : Option Nat :=
  if b < 0x80 then some 1
  else if b &&& 0xE0 = 0xC0 then some 2
  else if b &&& 0xF0 = 0xE0 then some 3
  else if b &&& 0xF8 = 0xF0 then some 4
  else none

/-- Reads the characters of a tag. An escape `%xx` gives a byte; `missing` counts the bytes of the
escaped character that are still to come. -/
def readCharsFrom (full : Bool) (start : Mark) :
    (missing : Nat) → Mark → List Char → Except Fault (Bytes × Cursor)
  | missing, mark, '%' :: a :: b :: rest =>
    match hexDigit? a, hexDigit? b with
    | some x, some y =>
      let byte := x * 16 + y
      match missing with
      | 0 =>
        match width? byte with
        | some width => do
          let (bytes, after) ← readCharsFrom full start (width - 1) mark.next.next.next rest
          return (UInt8.ofNat byte :: bytes, after)
        | none => .error (.within .badLeadingOctet mark .tagUri start)
      | missing + 1 =>
        if byte &&& 0xC0 = 0x80 then do
          let (bytes, after) ← readCharsFrom full start missing mark.next.next.next rest
          return (UInt8.ofNat byte :: bytes, after)
        else .error (.within .badTrailingOctet mark .tagUri start)
    | _, _ => .error (.within .badOctet mark .tagUri start)
  | missing, mark, c :: rest =>
    if c == '%' || missing ≠ 0 then .error (.within .badOctet mark .tagUri start)
    else if isTagChar full c then do
      let (bytes, after) ← readCharsFrom full start 0 mark.next rest
      return (String.utf8EncodeChar c ++ bytes, after)
    else .ok ([], ⟨c :: rest, mark⟩)
  | missing, mark, [] =>
    if missing ≠ 0 then .error (.within .badOctet mark .tagUri start) else .ok ([], ⟨[], mark⟩)

/-- Reads the characters of a tag at a cursor. -/
def readChars (full : Bool) (start : Mark) (c : Cursor) : Except Fault (Bytes × Cursor) :=
  readCharsFrom full start 0 c.mark c.rest

/-- A tag as it is written: a handle that stands for the start of the tag, and the rest of it. -/
structure Written where
  handle : String
  suffix : Bytes
  deriving DecidableEq, Repr, Inhabited

/-- The tag that is written. Other handles than `!` and `!!` have no meaning. -/
def Written.tag? (w : Written) : Option Bytes :=
  match w.handle with
  | "" => some w.suffix
  | "!" => some (Utf8.encode "!" ++ w.suffix)
  | "!!" => some (shared "" ++ w.suffix)
  | _ => none

/-- Reads a tag that is given in full. -/
def readFull (start : Mark) (c : Cursor) : Except Fault (Written × Cursor) := do
  let (suffix, after) ← readChars true start (c.skip 2)
  if suffix = [] then .error (.within .tagEmpty after.mark .tagUri start)
  else if after.rest.head? = some '>' then .ok (⟨"", suffix⟩, after.skip 1)
  else .error (.within .tagUnclosed after.mark .tag start)

/-- Reads a tag with a handle. What looks like the start of a handle is a tag of the text's own
unless a second exclamation mark ends it. -/
def readShort (start : Mark) (c : Cursor) : Except Fault (Written × Cursor) := do
  let (name, afterName) := (c.skip 1).span isNameChar
  if afterName.rest.head? = some '!' then
    let (suffix, after) ← readChars false start (afterName.skip 1)
    if suffix = [] then .error (.within .tagEmpty after.mark .tagUri start)
    else .ok (⟨"!" ++ String.ofList name ++ "!", suffix⟩, after)
  else
    let (rest, after) ← readChars false start afterName
    let suffix := Utf8.encode (String.ofList name) ++ rest
    .ok (if suffix = [] then ⟨"", Utf8.encode "!"⟩ else ⟨"!", suffix⟩, after)

/-- Reads the tag at a cursor. Within brackets a comma may follow it at once. -/
def read (bracketed : Bool) (c : Cursor) : Except Fault (Written × Cursor) := do
  let (written, after) ←
    if (c.rest.drop 1).head? = some '<' then readFull c.mark c else readShort c.mark c
  if atSpace after.rest || (bracketed && after.rest.head? = some ',') then .ok (written, after)
  else .error (.within .tagUnfinished after.mark .tag c.mark)

end Tag

end ConsoleSweep.Yaml
