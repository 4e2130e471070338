/-!
# Indentation

Setting lines of a text in by blanks.
-/

namespace ConsoleSweep

/-- So many blanks. -/
def blanks (n : Nat) : String := String.ofList (List.replicate n ' ')

/-- A text whose lines after the first are set in by `n` blanks. -/
def hanging (n : Nat) (text : String) : String :=
  String.ofList
    (text.toList.flatMap fun c => if c = '\n' then '\n' :: List.replicate n ' ' else [c])

end ConsoleSweep
