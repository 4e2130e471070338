import ConsoleSweep.Glob.Matching
import ConsoleSweep.Glob.Shape

/-!
# Limits of the matching engine

The matching engine reads a glob as a regular expression, and refuses an expression that is nested
more than 250 deep. This module measures the nesting and writes the expression, which the engine's
complaint quotes when the glob was given to it alone.

A character class, a repetition, a group, an alternation and a sequence of more than one part each
add one level. A byte outside a class adds none.
-/

namespace ConsoleSweep.Glob

/-- The deepest expression the engine takes. -/
def nestingLimit : Nat := 250

/-- How deep a sequence is whose parts have the given depths. -/
def sequenceDepth : List Nat → Nat
  | [] => 0
  | [depth] => depth
  | depths => 1 + depths.foldl max 0

/-- How many members a class has in the expression. -/
def classSize (ranges : List (Char × Char)) : Nat := (ranges.flatMap byteRanges).length

mutual

/-- The depths of the parts that a token adds to a sequence. -/
def Token.partDepths : Token → List Nat
  | .literal c => (charBytes c).map fun _ => 0
  | .one => [1]
  | .run => [2]
  | .leadingDirs => [4]
  | .trailingDirs => [0, 1]
  | .innerDirs => [4]
  | .oneOf _ ranges => [if classSize ranges ≤ 1 then 1 else 2]
  | .choice branches =>
    match branchDepths branches with
    | [] => []
    | depths => [1 + sequenceDepth depths]

/-- The depths of the parts of a glob. -/
def partDepths : List Token → List Nat
  | [] => []
  | token :: rest => token.partDepths ++ partDepths rest

/-- The depths of the branches that ask for something. -/
def branchDepths : List (List Token) → List Nat
  | [] => []
  | branch :: rest =>
    if allVoid branch then branchDepths rest
    else sequenceDepth (partDepths branch) :: branchDepths rest

end

/-- How deep the expression of a glob is nested. The expression is a sequence with marks at both
ends. -/
def depth (glob : List Token) : Nat :=
  match glob with
  | [.leadingDirs] => 2
  | glob => 1 + (partDepths glob).foldl max 0

/-- Whether the engine refuses a glob. -/
def tooNested (glob : List Token) : Bool := nestingLimit < depth glob

/-- The characters that mean something in an expression. -/
def reserved : List Char :=
  ['\\', '.', '+', '*', '?', '(', ')', '|', '[', ']', '\x7b', '\x7d', '^', '$', '#', '&', '-', '~']

/-- A byte as it is written in an expression. -/
def writtenByte (b : UInt8) : List Char :=
  if b < 0x80 then
    let c := Char.ofNat b.toNat
    if c ∈ reserved then ['\\', c] else [c]
  else ['\\', 'x'] ++ Nat.toDigits 16 b.toNat

/-- A character as it is written in an expression. -/
def written (c : Char) : List Char := (charBytes c).flatMap writtenByte

/-- A range of a class as it is written in an expression. -/
def writtenRange (range : Char × Char) : List Char :=
  if range.1 == range.2 then written range.1 else written range.1 ++ ['-'] ++ written range.2

mutual

/-- A token as it is written in an expression. -/
def Token.source : Token → List Char
  | .literal c => written c
  | .one => "[^/]".toList
  | .run => "[^/]*".toList
  | .leadingDirs => "(?:/?|.*/)".toList
  | .trailingDirs => "/.*".toList
  | .innerDirs => "(?:/|/.*/)".toList
  | .oneOf negated ranges =>
    ['['] ++ (if negated then ['^'] else []) ++ ranges.flatMap writtenRange ++ [']']
  | .choice branches =>
    match branchSources branches with
    | [] => []
    | sources => "(?:".toList ++ ['|'].intercalate sources ++ [')']

/-- Tokens as they are written in an expression. -/
def tokensSource : List Token → List Char
  | [] => []
  | token :: rest => token.source ++ tokensSource rest

/-- The branches that ask for something, as they are written in an expression. -/
def branchSources : List (List Token) → List (List Char)
  | [] => []
  | branch :: rest =>
    if allVoid branch then branchSources rest else tokensSource branch :: branchSources rest

end

/-- The expression of a glob. -/
def source (glob : List Token) : String :=
  let body := match glob with
    | [.leadingDirs] => ['.', '*']
    | glob => tokensSource glob
  String.ofList ("(?-u)^".toList ++ body ++ ['$'])

/-- A glob that the engine refuses. -/
inductive Refusal where
  /-- A glob given to the engine alone. -/
  | alone (source : String)
  /-- The glob at a position among those given to the engine together. -/
  | together (index : Nat)
  deriving DecidableEq, Repr

/-- The complaint of the engine. -/
def Refusal.message : Refusal → String
  | alone source => "error parsing glob '" ++ source ++ "': error parsing pattern 0"
  | together index => "error parsing pattern " ++ toString index

/-- The glob the engine refuses, if it refuses one of these. -/
def refused? (globs : List (List Token)) : Option Refusal :=
  match globs.find? fun glob => shape glob == .extended && tooNested glob with
  | some glob => some (.alone (source glob))
  | none =>
    ((globs.filter (shape · == .general)).findIdx? tooNested).map .together

end ConsoleSweep.Glob
