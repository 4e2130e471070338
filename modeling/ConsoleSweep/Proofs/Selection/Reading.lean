import ConsoleSweep.Proofs.Text.Trimming
import ConsoleSweep.Selection

/-!
# How a line is read

A line is a few marks and a glob: `read_eq` says how it is read once they have been told apart
(`unmarked`). What is read is followed by what comes of it: which lines select
(`exists_line_of_unmarked`, `selects_of_read_bang`), and what the line of a text has a say about
(`mentions`), which does not change when it is turned round (`mentions_bang_star`).
-/

namespace ConsoleSweep

namespace Line

variable {text : List Char} {path : Bytes} {isDir : Bool}

/-! ## Ends of a line -/

theorem trimmed_of_getLast? (h : ∀ c, text.getLast? = some c → isBlank c = false) :
    trimmed text = text := by
  unfold trimmed
  split
  · rfl
  · exact trimRight_of_getLast? h

/-- Trimming keeps a first character that is neither a blank nor a backslash. -/
theorem trimmed_cons {c : Char} (hblank : isBlank c = false) (hslash : c ≠ '\\') :
    trimmed (c :: text) = c :: trimmed text := by
  have hends : ['\\', ' '].isSuffixOf (c :: text) = ['\\', ' '].isSuffixOf text := by
    rw [Bool.eq_iff_iff, List.isSuffixOf_iff_suffix, List.isSuffixOf_iff_suffix,
      List.suffix_cons_iff]
    refine or_iff_right ?_
    intro heq
    exact hslash (List.cons_eq_cons.mp heq).1.symm
  unfold trimmed
  rw [hends, trimRight_cons hblank]
  split <;> rfl

theorem prefix_trimmed (text : List Char) : trimmed text <+: text := by
  unfold trimmed
  split
  · exact List.prefix_refl text
  · rw [trimRight_eq_rdropWhile]
    exact List.rdropWhile_prefix isBlank text

theorem trimmed_ne_nil {c : Char} (hc : c ∈ text) (hblank : isBlank c = false) :
    trimmed text ≠ [] := by
  unfold trimmed
  split
  · exact List.ne_nil_of_mem hc
  · rw [trimRight_eq_rdropWhile, ne_eq, List.rdropWhile_eq_nil_iff]
    intro hall
    have := hall c hc
    rw [hblank] at this
    cases this

/-- A line that ends in a separator is only for directories. -/
theorem dropTrailingSlash_fst (front : List Char) :
    (dropTrailingSlash (front ++ ['/'])).1 = true := by
  unfold dropTrailingSlash
  rw [List.reverse_append, List.reverse_singleton, List.singleton_append]
  split
  · rfl
  · rfl
  next hnone => exact absurd rfl (hnone _)

theorem dropTrailingSlash_concat (front : List Char) (h : front.getLast? ≠ some '\\') :
    dropTrailingSlash (front ++ ['/']) = (true, front) := by
  unfold dropTrailingSlash
  rw [List.reverse_append, List.reverse_singleton, List.singleton_append]
  rw [← List.head?_reverse] at h
  split
  next rest hrest =>
    rw [List.cons_eq_cons] at hrest
    rw [hrest.2] at h
    exact absurd rfl h
  next rest _ hrest =>
    rw [List.cons_eq_cons] at hrest
    rw [← hrest.2, List.reverse_reverse]
  next hnone => exact absurd rfl (hnone _)

theorem dropTrailingSlash_of_getLast? (h : text.getLast? ≠ some '/') :
    dropTrailingSlash text = (false, text) := by
  unfold dropTrailingSlash
  rw [← List.head?_reverse] at h
  split
  next hrest =>
    rw [hrest] at h
    exact absurd rfl h
  next hrest =>
    rw [hrest] at h
    exact absurd rfl h
  next => rfl

/-! ## Marks -/

/-- What the marks at the start of a line say, and what comes after them: whether the line rejects,
and whether it is tied to the root. -/
def unmarked (line : List Char) : Bool × Bool × List Char :=
  if ['\\', '!'].isPrefixOf line || ['\\', '#'].isPrefixOf line then (false, false, line.drop 1)
  else ((dropLeading '!' line).1, dropLeading '/' (dropLeading '!' line).2)

section Read

variable {text line rest glob : List Char} {rejects tied dirsOnly : Bool}
  (hhead : text.head? ≠ some '#') (hline : trimmed text = line) (hne : line ≠ [])
  (hmarks : unmarked line = (rejects, tied, rest))
  (hslash : dropTrailingSlash rest = (dirsOnly, glob))

include hhead hline hne hmarks hslash

/-- A line is read by its marks. -/
theorem read_eq : read text =
    match Glob.parse (spelled tied glob) with
    | .ok tokens => .ok (some ⟨tokens, !rejects, dirsOnly⟩)
    | .error fault => .error (.line (String.ofList line) fault) := by
  have hnone : (text.head? == some '#' || line.isEmpty) = false := by
    simp [hhead, hne]
  unfold unmarked at hmarks
  unfold read
  simp only [hline, hnone, Bool.false_eq_true, if_false]
  by_cases hescaped : (['\\', '!'].isPrefixOf line || ['\\', '#'].isPrefixOf line) = true
  · rw [if_pos hescaped] at hmarks
    cases hmarks
    cases hparse : Glob.parse (spelled false glob) <;>
      simp only [hescaped, if_true, hslash, hparse]
  · rw [if_neg hescaped] at hmarks
    simp only [Prod.mk.injEq] at hmarks
    obtain ⟨rfl, hmarks⟩ := hmarks
    cases hparse : Glob.parse (spelled tied glob) <;>
      simp only [hescaped, Bool.false_eq_true, if_false, hmarks, hslash, hparse]

theorem exists_tokens_of_read {own : Option Line} (h : read text = .ok own) :
    ∃ tokens, Glob.parse (spelled tied glob) = .ok tokens ∧
      own = some ⟨tokens, !rejects, dirsOnly⟩ := by
  rw [read_eq hhead hline hne hmarks hslash] at h
  split at h
  next tokens hparse =>
    cases h
    exact ⟨tokens, hparse, rfl⟩
  next => cases h

end Read

theorem unmarked_bang (rest : List Char) :
    unmarked ('!' :: rest) = (true, dropLeading '/' rest) := rfl

/-- A line that starts with `!` rejects what it matches. -/
theorem selects_of_read_bang {text : List Char} {line : Line}
    (h : read ('!' :: text) = .ok (some line)) : line.selects = false := by
  obtain ⟨rest, hrest⟩ : ∃ rest, trimmed ('!' :: text) = '!' :: rest := by
    unfold trimmed
    split
    · exact ⟨text, rfl⟩
    · exact ⟨_, trimRight_cons (by decide) text⟩
  obtain ⟨tokens, -, hline⟩ :=
    exists_tokens_of_read (by simp) hrest (by simp) (unmarked_bang rest) rfl h
  cases hline
  rfl

/-- A line that does not start with `!` does not reject. -/
theorem unmarked_of_head? {line : List Char} (h : line.head? ≠ some '!') :
    (unmarked line).1 = false := by
  unfold unmarked
  split
  · rfl
  · cases line with
    | nil => rfl
    | cons first rest =>
      have hfirst : first ≠ '!' := fun heq => h (by rw [heq]; rfl)
      rw [dropLeading, if_neg hfirst]

/-- A text with a separator that starts with no mark is a line that selects. -/
theorem exists_line_of_unmarked (hbang : text.head? ≠ some '!') (hhash : text.head? ≠ some '#')
    (hslash : '/' ∈ text) {own : Option Line} (h : read text = .ok own) :
    ∃ line, own = some line ∧ line.selects = true := by
  have hne := trimmed_ne_nil hslash (by decide)
  have hhead : (trimmed text).head? ≠ some '!' := by
    obtain ⟨rest, hrest⟩ := prefix_trimmed text
    rwa [← hrest, List.head?_append_of_ne_nil _ hne] at hbang
  have hrejects := unmarked_of_head? hhead
  cases hmarks : unmarked (trimmed text) with
  | mk rejects marked =>
    rw [hmarks] at hrejects
    cases hrejects
    cases hdrop : dropTrailingSlash marked.2 with
    | mk dirsOnly glob =>
      obtain ⟨tokens, -, rfl⟩ := exists_tokens_of_read hhash rfl hne hmarks hdrop h
      exact ⟨_, rfl, rfl⟩

/-! ## Lines of texts -/

/-- The line of a text, if the text can be read and is one. -/
def ofText? (text : List Char) : Option Line :=
  match read text with
  | .ok own => own
  | .error _ => none

theorem ofText?_of_read {text : List Char} {own : Option Line} (h : read text = .ok own) :
    ofText? text = own := by
  rw [ofText?, h]

/-- Whether the line of a text has a say about a path. -/
def mentions (text : List Char) (path : Bytes) (isDir : Bool) : Bool :=
  (ofText? text).any (·.applies path isDir)

/-- The line of a text, by its marks. -/
theorem ofText?_eq {line rest glob : List Char} {rejects tied dirsOnly : Bool}
    (hhead : text.head? ≠ some '#') (hline : trimmed text = line) (hne : line ≠ [])
    (hmarks : unmarked line = (rejects, tied, rest))
    (hslash : dropTrailingSlash rest = (dirsOnly, glob)) : ofText? text =
      (Glob.parse (spelled tied glob)).toOption.map (⟨·, !rejects, dirsOnly⟩) := by
  rw [ofText?, read_eq hhead hline hne hmarks hslash]
  cases Glob.parse (spelled tied glob) <;> rfl

section Star

variable (rest : List Char)

theorem trimmed_star : trimmed ('*' :: rest) = '*' :: trimmed rest :=
  trimmed_cons (by decide) (by decide)

theorem trimmed_bang_star : trimmed ('!' :: '*' :: rest) = '!' :: '*' :: trimmed rest := by
  rw [trimmed_cons (by decide) (by decide), trimmed_star]

/-- The line of a glob that starts with a star. -/
theorem ofText?_star : ofText? ('*' :: rest) =
    (Glob.parse (spelled false (dropTrailingSlash ('*' :: trimmed rest)).2)).toOption.map
      (⟨·, true, (dropTrailingSlash ('*' :: trimmed rest)).1⟩) :=
  ofText?_eq (by simp) (trimmed_star rest) (by simp) rfl rfl

/-- Such a line turned round. -/
theorem ofText?_bang_star : ofText? ('!' :: '*' :: rest) =
    (Glob.parse (spelled false (dropTrailingSlash ('*' :: trimmed rest)).2)).toOption.map
      (⟨·, false, (dropTrailingSlash ('*' :: trimmed rest)).1⟩) :=
  ofText?_eq (by simp) (trimmed_bang_star rest) (by simp) rfl rfl

/-- Turning a line round does not change what it has a say about. -/
theorem mentions_bang_star :
    mentions ('!' :: '*' :: rest) path isDir = mentions ('*' :: rest) path isDir := by
  rw [mentions, mentions, ofText?_star, ofText?_bang_star, Option.any_map, Option.any_map]
  rfl

variable {rest} in
/-- Reading such a line that does not end in a blank. -/
theorem read_bang_star {dirsOnly : Bool} {glob : List Char} {tokens : List Glob.Token}
    (hlast : ∀ c, rest.getLast? = some c → isBlank c = false)
    (hslash : dropTrailingSlash ('*' :: rest) = (dirsOnly, glob))
    (hparse : Glob.parse (spelled false glob) = .ok tokens) :
    read ('!' :: '*' :: rest) = .ok (some ⟨tokens, false, dirsOnly⟩) := by
  have hline := trimmed_bang_star rest
  rw [trimmed_of_getLast? hlast] at hline
  have hmarks : unmarked ('!' :: '*' :: rest) = (true, false, '*' :: rest) := rfl
  rw [read_eq (by simp) hline (by simp) hmarks hslash, hparse]
  rfl

end Star

end Line

end ConsoleSweep
