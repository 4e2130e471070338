/-!
# Similarity of words

How alike two words are, as a number between zero and one: the mean of the shares of letters that
have a partner in either word, and of the partnered letters that come in the same order. A letter's
partner is the same letter at most half the length of the longer word away.
-/

namespace ConsoleSweep.Similarity

/-- How far apart two partners may stand. -/
def reach (a b : List Char) : Nat := max a.length b.length / 2 - 1

/-- The place in `b` of the partner of the letter `c` that stands at `i`: the first one within reach
that holds the same letter and is not taken. -/
def partner? (b : List Char) (reach i : Nat) (c : Char) (taken : List Nat) : Option Nat :=
  (b.zipIdx.find? fun (d, j) => d == c && i ≤ j + reach && j ≤ i + reach && !taken.contains j).map
    (·.2)

/-- The letters of `a` that have a partner, each with the place of its partner in `b`. -/
def partners (a b : List Char) : List (Char × Nat) :=
  a.zipIdx.foldl
    (fun found (c, i) =>
      match partner? b (reach a b) i c (found.map (·.2)) with
      | some j => found ++ [(c, j)]
      | none => found)
    []

/-- How many partnered letters stand, among the partnered letters, at different places in the two
words. -/
def displaced (b : List Char) (found : List (Char × Nat)) : Nat :=
  let inOrder := b.zipIdx.filter fun (_, j) => (found.map (·.2)).contains j
  ((found.zip inOrder).filter fun ((c, _), (d, _)) => c != d).length

/-- How alike two words are. -/
def score (a b : List Char) : Float :=
  let found := partners a b
  if found.isEmpty then 0.0
  else
    let shared := found.length.toFloat
    (shared / a.length.toFloat + shared / b.length.toFloat +
      (found.length - displaced b found / 2).toFloat / shared) / 3.0

/-- The words that are more alike to `word` than `least`, and the most alike of them; of equals the
last. -/
def mostAlike? (least : Float) (word : String) (words : List String) : Option String :=
  (words.foldl
    (fun (best : Option (Float × String)) candidate =>
      let s := score word.toList candidate.toList
      if s > least && best.all (fun (t, _) => t ≤ s) then some (s, candidate) else best)
    none).map (·.2)

end ConsoleSweep.Similarity
