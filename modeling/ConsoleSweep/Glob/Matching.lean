import ConsoleSweep.Glob.Expr
import ConsoleSweep.Glob.Token

/-!
# What globs match

A glob describes byte sequences through its tokens. Wildcards for one byte and for a run stay within
a name; a class does not, it may match a separator. A class holds the bytes of its characters rather
than the characters, so a class with a non-ASCII character matches parts of it.

A choice drops branches that ask for nothing, and a glob that is nothing but `**` matches
everything.
-/

namespace ConsoleSweep.Glob

/-- The bytes of a character. -/
def charBytes (c : Char) : Bytes := String.utf8EncodeChar c

/-- The inclusive byte ranges a character range stands for: the bytes of both characters, with the
last byte of one and the first byte of the other as the ends of a range. -/
def byteRanges (range : Char × Char) : List (UInt8 × UInt8) :=
  let single (bytes : Bytes) := bytes.map fun b => (b, b)
  let low := charBytes range.1
  let high := charBytes range.2
  if range.1 == range.2 then single low
  else single low.dropLast ++ [(low.getLastD 0, high.headD 0)] ++ single high.tail

/-- Whether a byte belongs to a class. -/
def classHolds (negated : Bool) (ranges : List (Char × Char)) (b : UInt8) : Bool :=
  (ranges.flatMap byteRanges).any (fun (low, high) => low ≤ b && b ≤ high) != negated

/-- One byte within a name. -/
def inName (b : UInt8) : Bool := b != slash

/-- Any byte. -/
def anyByte (_ : UInt8) : Bool := true

/-- One separator. -/
def separator : Expr := .byte (· == slash)

mutual

/-- What a token describes. -/
def Token.expr : Token → Expr
  | .literal c => .exactly (charBytes c)
  | .one => .byte inName
  | .run => .bytes inName
  | .leadingDirs => .either .nothing (.seq (.bytes anyByte) separator)
  | .trailingDirs => .seq separator (.bytes anyByte)
  | .innerDirs => .seq separator (.either .nothing (.seq (.bytes anyByte) separator))
  | .oneOf negated ranges => .byte (classHolds negated ranges)
  | .choice branches => (branchesExpr branches).getD .nothing

/-- What a sequence of tokens describes. -/
def tokensExpr : List Token → Expr
  | [] => .nothing
  | token :: rest => .seq token.expr (tokensExpr rest)

/-- What the branches of a choice describe, if one of them asks for something. -/
def branchesExpr : List (List Token) → Option Expr
  | [] => none
  | branch :: rest =>
    if allVoid branch then branchesExpr rest
    else
      match branchesExpr rest with
      | none => some (tokensExpr branch)
      | some others => some (.either (tokensExpr branch) others)

end

/-- What a whole glob describes. -/
def expr : List Token → Expr
  | [.leadingDirs] => .bytes anyByte
  | tokens => tokensExpr tokens

/-- Whether a glob matches the bytes of a path. -/
def accepts (glob : List Token) (path : Bytes) : Bool := (expr glob).accepts path

end ConsoleSweep.Glob
