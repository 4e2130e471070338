import ConsoleSweep.Text.Shapeless
import ConsoleSweep.Text.Utf8

/-!
# Quoted texts

The log shows texts and paths between double quotes. A quote and a backslash are written with a
backslash, the common control characters by a letter, every other character without a shape of its
own by its code point, and a byte that belongs to no character by its value.
-/

namespace ConsoleSweep.Quoted

/-- The digits of a number in base sixteen, most significant first. -/
def hexDigits (n : Nat) : List Char := Nat.toDigits 16 n

/-- A character as it stands between quotes. -/
def char (c : Char) : List Char :=
  match c with
  | '\x00' => ['\\', '0']
  | '\t' => ['\\', 't']
  | '\r' => ['\\', 'r']
  | '\n' => ['\\', 'n']
  | '"' => ['\\', '"']
  | '\\' => ['\\', '\\']
  | c => if isShapeless c then ['\\', 'u', '\x7b'] ++ hexDigits c.toNat ++ ['\x7d'] else [c]

/-- A byte outside every character, as it stands between quotes: two upper-case digits. -/
def byte (b : UInt8) : List Char :=
  let digits := (hexDigits b.toNat).map Char.toUpper
  ['\\', 'x'] ++ List.replicate (2 - digits.length) '0' ++ digits

/-- A piece of a byte sequence as it stands between quotes. -/
def piece : Utf8.Piece → List Char
  | .char c => char c
  | .stray bytes => bytes.flatMap byte

/-- A text between quotes. -/
def text (s : String) : String :=
  String.ofList (['"'] ++ s.toList.flatMap char ++ ['"'])

/-- A byte sequence between quotes. -/
def bytes (b : Bytes) : String :=
  String.ofList (['"'] ++ (Utf8.pieces b).flatMap piece ++ ['"'])

/-- A list of texts: quoted, separated by commas, between brackets. -/
def list (ss : List String) : String :=
  "[" ++ ", ".intercalate (ss.map text) ++ "]"

end ConsoleSweep.Quoted
