/-!
# Bytes and UTF-8

Files, paths, standard input and output are sequences of bytes. This module reads bytes as UTF-8:
`Utf8.pieces` cuts a byte sequence into characters and the stray byte groups between them, and the
other readings are functions of those pieces.

## Shape of a stray group

A stray group is a maximal prefix of a well-formed character that is cut short, or a single byte
that starts no character. `pieces` goes over the bytes once, carrying the character under way, so it
recurses on the bytes themselves.
-/

namespace ConsoleSweep

/-- A sequence of bytes. -/
abbrev Bytes := List UInt8

namespace Utf8

/-- One step of reading bytes as text: a character, or bytes that belong to none. -/
inductive Piece where
  | char (c : Char)
  | stray (bytes : Bytes)
  deriving DecidableEq, Repr, Inhabited

/-- A character whose first bytes have been seen: the bits so far, the number of bytes still
missing, and the range the next byte must lie in. -/
structure Partial where
  seen : Bytes
  code : Nat
  missing : Nat
  low : UInt8 := 0x80
  high : UInt8 := 0xBF
  deriving Repr

/-- The byte sequence of a text. -/
def encode (s : String) : Bytes :=
  s.toList.flatMap String.utf8EncodeChar

/-- Reads the first byte of a character. The bounds on the second byte rule out overlong forms,
surrogates and code points above U+10FFFF. -/
def lead (b : UInt8) : Piece ⊕ Partial :=
  let bits (mask : Nat) := b.toNat &&& mask
  if b < 0x80 then .inl (.char (Char.ofNat b.toNat))
  else if b < 0xC2 then .inl (.stray [b])
  else if b < 0xE0 then .inr { seen := [b], code := bits 0x1F, missing := 1 }
  else if b == 0xE0 then .inr { seen := [b], code := bits 0x0F, missing := 2, low := 0xA0 }
  else if b == 0xED then .inr { seen := [b], code := bits 0x0F, missing := 2, high := 0x9F }
  else if b < 0xF0 then .inr { seen := [b], code := bits 0x0F, missing := 2 }
  else if b == 0xF0 then .inr { seen := [b], code := bits 0x07, missing := 3, low := 0x90 }
  else if b < 0xF4 then .inr { seen := [b], code := bits 0x07, missing := 3 }
  else if b == 0xF4 then .inr { seen := [b], code := bits 0x07, missing := 3, high := 0x8F }
  else .inl (.stray [b])

/-- Takes one byte with nothing under way. -/
def feedFresh (b : UInt8) : List Piece × Option Partial :=
  match lead b with
  | .inl piece => ([piece], none)
  | .inr started => ([], some started)

/-- Takes one byte: the pieces it completes and the character under way after it. A byte that cannot
continue the character under way ends it as a stray group and starts afresh. -/
def feed : Option Partial → UInt8 → List Piece × Option Partial
  | none, b => feedFresh b
  | some p, b =>
    if p.low ≤ b && b ≤ p.high then
      let code := p.code * 64 + (b.toNat &&& 0x3F)
      if p.missing ≤ 1 then ([.char (Char.ofNat code)], none)
      else ([], some { seen := p.seen ++ [b], code, missing := p.missing - 1 })
    else
      let (pieces, next) := feedFresh b
      (.stray p.seen :: pieces, next)

/-- The pieces of the bytes still to come, given the character under way. -/
def piecesFrom : Option Partial → Bytes → List Piece
  | none, [] => []
  | some p, [] => [.stray p.seen]
  | under, b :: rest =>
    let (pieces, next) := feed under b
    pieces ++ piecesFrom next rest

/-- A byte sequence as characters and stray groups. -/
def pieces (bytes : Bytes) : List Piece := piecesFrom none bytes

/-- The character of a piece, if it is one. -/
def Piece.char? : Piece → Option Char
  | .char c => some c
  | .stray _ => none

/-- The bytes of a piece. -/
def Piece.bytes : Piece → Bytes
  | .char c => String.utf8EncodeChar c
  | .stray bytes => bytes

/-- The byte sequence that was cut into pieces. -/
def join (pieces : List Piece) : Bytes := pieces.flatMap Piece.bytes

/-- The text of a byte sequence, if every byte belongs to a character. -/
def decode? (bytes : Bytes) : Option String :=
  ((pieces bytes).mapM Piece.char?).map String.ofList

/-- The character that stands for a stray group where a byte sequence is shown as text. -/
def replacement : Char := '\uFFFD'

/-- A byte sequence shown as text: each stray group becomes one replacement character. -/
def lossy (bytes : Bytes) : String :=
  String.ofList ((pieces bytes).map fun piece => piece.char?.getD replacement)

end Utf8

end ConsoleSweep
