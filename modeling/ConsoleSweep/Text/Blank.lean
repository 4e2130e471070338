/-!
# Blank characters

A character is blank when Unicode gives it the property `White_Space`. The scanner skips blanks
inside a statement, and names, replies and glob lines are trimmed of them.
-/

namespace ConsoleSweep

/-- Whether a character is white space: the twenty-five characters of the Unicode property
`White_Space`. -/
def isBlank (c : Char) : Bool :=
  let n := c.toNat
  (0x09 ≤ n && n ≤ 0x0D) || n == 0x20 || n == 0x85 || n == 0xA0 || n == 0x1680 ||
    (0x2000 ≤ n && n ≤ 0x200A) || n == 0x2028 || n == 0x2029 || n == 0x202F || n == 0x205F ||
    n == 0x3000

/-- Drops the characters satisfying `p` from both ends. -/
def trimEnds (p : Char → Bool) (cs : List Char) : List Char :=
  ((cs.dropWhile p).reverse.dropWhile p).reverse

/-- Drops the characters satisfying `p` from the right end. -/
def trimRight (p : Char → Bool) (cs : List Char) : List Char :=
  (cs.reverse.dropWhile p).reverse

/-- Drops the blanks at both ends of a text. -/
def trimBlanks (s : String) : String :=
  String.ofList (trimEnds isBlank s.toList)

end ConsoleSweep
