import ConsoleSweep.Text.Blank

/-!
# Console statements

A console statement is a call of one of five methods of `console`, written as

* the word `console.`, then one of `log`, `debug`, `info`, `warn` and `error`;
* any run of blanks, then `(`;
* any run of characters other than `)`, line feeds included, then `)`;
* the whole run of blanks after it, and one `;` if that comes next.

The argument list ends at the first `)`, whatever the text between means to a compiler. This module
reads one statement at the start of a text and finds the leftmost statement of a text; the lemmas
say that nothing is lost and that something is always used up.
-/

namespace ConsoleSweep.Statement

/-- What every statement starts with. -/
def opener : List Char := ['c', 'o', 'n', 's', 'o', 'l', 'e', '.']

theorem opener_length : opener.length = 8 := rfl

/-- The methods whose calls are statements. No method is a prefix of another. -/
def methods : List (List Char) :=
  [['l', 'o', 'g'], ['d', 'e', 'b', 'u', 'g'], ['i', 'n', 'f', 'o'], ['w', 'a', 'r', 'n'],
    ['e', 'r', 'r', 'o', 'r']]

/-- What follows `word` in a text that starts with it. -/
def after? (word text : List Char) : Option (List Char) :=
  if word.isPrefixOf text then some (text.drop word.length) else none

/-- Drops one `;` if the text starts with it. -/
def dropSemicolon : List Char → List Char
  | ';' :: rest => rest
  | text => text

/-- What follows the statement at the start of a text, if there is one. -/
def rest? (text : List Char) : Option (List Char) := do
  let called ← after? opener text
  let named ← methods.findSome? (after? · called)
  let arguments ← after? ['('] (named.dropWhile isBlank)
  let closed ← after? [')'] (arguments.dropWhile (· != ')'))
  return dropSemicolon (closed.dropWhile isBlank)

/-- The text before its leftmost statement, that statement, and the text after it. -/
structure Found where
  before : List Char
  statement : List Char
  after : List Char
  deriving DecidableEq, Repr

/-- The leftmost statement of a text. -/
def first? : List Char → Option Found
  | [] => none
  | c :: cs =>
    match rest? (c :: cs) with
    | some after => some ⟨[], (c :: cs).take ((c :: cs).length - after.length), after⟩
    | none => (first? cs).map fun found => { found with before := c :: found.before }

/-! ## Nothing is lost -/

theorem after?_eq_some {word text rest : List Char} (h : after? word text = some rest) :
    text = word ++ rest := by
  unfold after? at h
  split at h
  next prefixed =>
    cases h
    exact (List.prefix_iff_eq_append.mp (List.isPrefixOf_iff_prefix.mp prefixed)).symm
  next => cases h

theorem dropSemicolon_suffix (text : List Char) : dropSemicolon text <:+ text := by
  unfold dropSemicolon
  split
  · exact List.suffix_cons _ _
  · exact List.suffix_rfl

theorem suffix_of_after? {word text rest : List Char} (h : after? word text = some rest) :
    rest <:+ text :=
  ⟨word, (after?_eq_some h).symm⟩

theorem suffix_of_findSome? {words : List (List Char)} {text rest : List Char}
    (h : words.findSome? (after? · text) = some rest) : rest <:+ text := by
  obtain ⟨word, -, h⟩ := List.exists_of_findSome?_eq_some h
  exact suffix_of_after? h

/-- What follows a statement is a proper suffix of the text. -/
theorem rest?_suffix {text rest : List Char} (h : rest? text = some rest) :
    rest <:+ text ∧ rest.length < text.length := by
  simp only [rest?, Option.bind_eq_bind, Option.pure_def, Option.bind_eq_some_iff,
    Option.some.injEq] at h
  obtain ⟨called, hcalled, named, hnamed, arguments, harguments, closed, hclosed, hrest⟩ := h
  subst hrest
  have shorter : called <:+ text ∧ called.length < text.length := by
    have sum := congrArg List.length (after?_eq_some hcalled)
    rw [List.length_append, opener_length] at sum
    exact ⟨suffix_of_after? hcalled, by omega⟩
  have chain : dropSemicolon (closed.dropWhile isBlank) <:+ called :=
    (dropSemicolon_suffix _).trans <| (List.dropWhile_suffix _).trans <|
      (suffix_of_after? hclosed).trans <| (List.dropWhile_suffix _).trans <|
      (suffix_of_after? harguments).trans <| (List.dropWhile_suffix _).trans <|
      suffix_of_findSome? hnamed
  exact ⟨chain.trans shorter.1, Nat.lt_of_le_of_lt chain.length_le shorter.2⟩

/-- A text is the part before its leftmost statement, the statement, and the part after it. -/
theorem eq_of_first? {text : List Char} {found : Found} (h : first? text = some found) :
    text = found.before ++ found.statement ++ found.after := by
  induction text generalizing found with
  | nil => simp [first?] at h
  | cons c cs ih =>
    unfold first? at h
    split at h
    next rest hrest =>
      cases h
      obtain ⟨⟨statement, hstatement⟩, -⟩ := rest?_suffix hrest
      rw [← hstatement]
      simp
    next =>
      obtain ⟨inner, hinner, rfl⟩ := Option.map_eq_some_iff.mp h
      simpa using ih hinner

/-- The part after the leftmost statement is shorter than the text. -/
theorem after_length_lt {text : List Char} {found : Found} (h : first? text = some found) :
    found.after.length < text.length := by
  induction text generalizing found with
  | nil => simp [first?] at h
  | cons c cs ih =>
    unfold first? at h
    split at h
    next rest hrest => cases h; exact (rest?_suffix hrest).2
    next =>
      obtain ⟨inner, hinner, rfl⟩ := Option.map_eq_some_iff.mp h
      have shorter := ih hinner
      simpa using Nat.lt_succ_of_lt shorter

end ConsoleSweep.Statement
