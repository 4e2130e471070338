import ConsoleSweep.Statement.Basic

/-!
# Cutting a text into statements and gaps

`split` cuts a text at its statements, leftmost first and without overlap. Finding the statements of
a text and stripping it of them are two views of this one decomposition.
-/

namespace ConsoleSweep

/-- A text cut at its statements: the gap before the first statement, then each statement with the
gap that follows it. -/
structure Split where
  lead : List Char
  tail : List (List Char × List Char)
  deriving DecidableEq, Repr

namespace Split

/-- The statements, in order of appearance. -/
def statements (s : Split) : List (List Char) := s.tail.map Prod.fst

/-- The text without its statements. -/
def kept (s : Split) : List Char := s.lead ++ s.tail.flatMap Prod.snd

/-- The text that was cut. -/
def whole (s : Split) : List Char := s.lead ++ s.tail.flatMap fun (stmt, gap) => stmt ++ gap

/-- Puts a gap and a statement in front. -/
def push (gap stmt : List Char) (s : Split) : Split := ⟨gap, (stmt, s.lead) :: s.tail⟩

end Split

namespace Statement

/-- Cuts a text at its statements. -/
def split (text : List Char) : Split :=
  match _found : first? text with
  | none => ⟨text, []⟩
  | some found => (split found.after).push found.before found.statement
termination_by text.length
decreasing_by exact after_length_lt _found

/-- Every statement of a text, in order of appearance. -/
def findAll (text : String) : List String :=
  (split text.toList).statements.map String.ofList

/-- A text without its statements, and how many there were. -/
def strip (text : String) : String × Nat :=
  let cut := split text.toList
  (String.ofList cut.kept, cut.tail.length)

/-- Cutting loses nothing. -/
theorem whole_split (text : List Char) : (split text).whole = text := by
  fun_induction split text with
  | case1 text h => simp [Split.whole]
  | case2 text found h ih =>
    have cut := eq_of_first? h
    rw [Split.whole] at ih
    simp only [Split.push, Split.whole, List.flatMap_cons, List.append_assoc, ih]
    rw [← List.append_assoc]
    exact cut.symm

/-- The number of statements stripped is the number of statements found. -/
theorem strip_count (text : String) : (strip text).2 = (findAll text).length := by
  simp [strip, findAll, Split.statements]

end Statement

end ConsoleSweep
