/-!
# Faults of YAML texts

A fault says what is wrong, where, and what was being read. Positions are counted from zero and
shown from one.
-/

namespace ConsoleSweep.Yaml

/-- A position in a text. -/
structure Mark where
  /-- The number of characters before it. -/
  index : Nat
  line : Nat
  column : Nat
  deriving DecidableEq, Repr, Inhabited

namespace Mark

/-- The start of a text. -/
def start : Mark := ⟨0, 0, 0⟩

/-- The position after a character that does not end a line. -/
def next (m : Mark) : Mark := ⟨m.index + 1, m.line, m.column + 1⟩

/-- The start of the line after a line break of so many characters. -/
def nextLine (m : Mark) (length : Nat) : Mark := ⟨m.index + length, m.line + 1, 0⟩

/-- Whether two positions are at the same place of the same line. -/
def samePlace (m n : Mark) : Bool := m.line == n.line && m.column == n.column

/-- Where something is, as it follows a message. The start of the text goes without saying. -/
def suffix (m : Mark) : String :=
  if m.samePlace start then ""
  else " at line " ++ toString (m.line + 1) ++ " column " ++ toString (m.column + 1)

end Mark

/-- What can be wrong with a text. -/
inductive Problem where
  | strayCharacter
  | colonMissing
  | entryNotAllowed
  | keyNotAllowed
  | valueNotAllowed
  | badAnchor
  | tagUnclosed
  | tagUnfinished
  | tagEmpty
  | badOctet
  | badLeadingOctet
  | badTrailingOctet
  | zeroIndentation
  | lineBreakMissing
  | tabInIndentation
  | documentInQuotes
  | endInQuotes
  | unknownEscape
  | badHexadecimal
  | badCodePoint
  | strayColon
  | tabBelowIndentation
  | documentStartMissing
  | contentMissing
  | unknownHandle
  | entryMissing
  | keyMissing
  | sequenceUnclosed
  | mappingUnclosed
  deriving DecidableEq, Repr, Inhabited

/-- A problem in words. -/
def Problem.message : Problem → String
  | strayCharacter => "found character that cannot start any token"
  | colonMissing => "could not find expected ':'"
  | entryNotAllowed => "block sequence entries are not allowed in this context"
  | keyNotAllowed => "mapping keys are not allowed in this context"
  | valueNotAllowed => "mapping values are not allowed in this context"
  | badAnchor => "did not find expected alphabetic or numeric character"
  | tagUnclosed => "did not find the expected '>'"
  | tagUnfinished => "did not find expected whitespace or line break"
  | tagEmpty => "did not find expected tag URI"
  | badOctet => "did not find URI escaped octet"
  | badLeadingOctet => "found an incorrect leading UTF-8 octet"
  | badTrailingOctet => "found an incorrect trailing UTF-8 octet"
  | zeroIndentation => "found an indentation indicator equal to 0"
  | lineBreakMissing => "did not find expected comment or line break"
  | tabInIndentation => "found a tab character where an indentation space is expected"
  | documentInQuotes => "found unexpected document indicator"
  | endInQuotes => "found unexpected end of stream"
  | unknownEscape => "found unknown escape character"
  | badHexadecimal => "did not find expected hexdecimal number"
  | badCodePoint => "found invalid Unicode character escape code"
  | strayColon => "found unexpected ':'"
  | tabBelowIndentation => "found a tab character that violates indentation"
  | documentStartMissing => "did not find expected <document start>"
  | contentMissing => "did not find expected node content"
  | unknownHandle => "found undefined tag handle"
  | entryMissing => "did not find expected '-' indicator"
  | keyMissing => "did not find expected key"
  | sequenceUnclosed => "did not find expected ',' or ']'"
  | mappingUnclosed => "did not find expected ',' or '\x7d'"

/-- What was being read. -/
inductive Context where
  | token
  | simpleKey
  | anchor
  | «alias»
  | tag
  | tagUri
  | blockScalar
  | quotedScalar
  | escape
  | plainScalar
  | node
  | blockNode
  | flowNode
  | blockSequence
  | blockMapping
  | flowSequence
  | flowMapping
  deriving DecidableEq, Repr, Inhabited

/-- A context in words. -/
def Context.message : Context → String
  | token => "while scanning for the next token"
  | simpleKey => "while scanning a simple key"
  | anchor => "while scanning an anchor"
  | «alias» => "while scanning an alias"
  | tag => "while scanning a tag"
  | tagUri => "while parsing a tag"
  | blockScalar => "while scanning a block scalar"
  | quotedScalar => "while scanning a quoted scalar"
  | escape => "while parsing a quoted scalar"
  | plainScalar => "while scanning a plain scalar"
  | node => "while parsing a node"
  | blockNode => "while parsing a block node"
  | flowNode => "while parsing a flow node"
  | blockSequence => "while parsing a block collection"
  | blockMapping => "while parsing a block mapping"
  | flowSequence => "while parsing a flow sequence"
  | flowMapping => "while parsing a flow mapping"

/-- Why a text is not YAML, or not all of it. -/
inductive Fault where
  /-- A control character, after so many bytes. -/
  | controlCharacter (offset : Nat)
  /-- A problem at a position. -/
  | bare (problem : Problem) (mark : Mark)
  /-- A problem at a position, in something that starts at another. -/
  | within (problem : Problem) (mark : Mark) (context : Context) (start : Mark)
  /-- An alias of something that has no anchor before it. -/
  | unknownAnchor (mark : Mark)
  deriving DecidableEq, Repr, Inhabited

/-- A fault in words. -/
def Fault.message : Fault → String
  | controlCharacter offset =>
    "control characters are not allowed" ++
      if offset = 0 then "" else " at position " ++ toString offset
  | bare problem mark => problem.message ++ mark.suffix
  | within problem mark context start =>
    problem.message ++ mark.suffix ++ ", " ++ context.message ++
      if start.samePlace mark then "" else start.suffix
  | unknownAnchor mark => "unknown anchor" ++ mark.suffix

end ConsoleSweep.Yaml
