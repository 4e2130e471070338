import ConsoleSweep.Path

/-!
# Byte expressions

What a glob asks of the bytes of a path, made of single bytes, runs of bytes, sequence and choice.
`Expr.Matches` says which byte sequences an expression describes. `Expr.accepts` decides it by
moving a row of marks, one for every position of the sequence, across the expression: a position is
marked if the part of the expression passed so far describes the bytes before it.
-/

namespace ConsoleSweep.Glob

/-- A description of byte sequences. -/
inductive Expr where
  /-- No bytes. -/
  | nothing
  /-- One byte of a set. -/
  | byte (member : UInt8 → Bool)
  /-- Any number of bytes of a set. -/
  | bytes (member : UInt8 → Bool)
  /-- One description, then another. -/
  | seq (first second : Expr)
  /-- One of two descriptions. -/
  | either (left right : Expr)

namespace Expr

/-- Whether an expression describes a byte sequence. -/
def Matches : Expr → Bytes → Prop
  | nothing, text => text = []
  | byte member, text => ∃ b, member b = true ∧ text = [b]
  | bytes member, text => ∀ b ∈ text, member b = true
  | seq first second, text => ∃ u v, text = u ++ v ∧ first.Matches u ∧ second.Matches v
  | either left right, text => left.Matches text ∨ right.Matches text

/-- Moves every mark over one byte of the set. -/
def shift (member : UInt8 → Bool) (text : Bytes) (marks : List Bool) : List Bool :=
  false :: List.zipWith (fun b mark => mark && member b) text marks

/-- Moves every mark over any number of bytes of the set; `carried` is the mark that has come as far
as the first position. -/
def spread (member : UInt8 → Bool) : (carried : Bool) → Bytes → List Bool → List Bool
  | _, _, [] => []
  | carried, [], mark :: _ => [carried || mark]
  | carried, b :: text, mark :: marks =>
    (carried || mark) :: spread member ((carried || mark) && member b) text marks

/-- Moves marks across an expression. -/
def advance (text : Bytes) : Expr → List Bool → List Bool
  | nothing, marks => marks
  | byte member, marks => shift member text marks
  | bytes member, marks => spread member false text marks
  | seq first second, marks => advance text second (advance text first marks)
  | either left right, marks =>
    List.zipWith (· || ·) (advance text left marks) (advance text right marks)

/-- Whether an expression describes a byte sequence, decided with marks. -/
def accepts (e : Expr) (text : Bytes) : Bool :=
  (advance text e (true :: text.map fun _ => false)).getLast? == some true

/-- The description of exactly the given bytes. -/
def exactly : Bytes → Expr
  | [] => nothing
  | b :: rest => seq (byte (· == b)) (exactly rest)

end Expr

end ConsoleSweep.Glob
