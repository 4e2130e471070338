import ConsoleSweep.Proofs.Glob.Reading
import ConsoleSweep.Proofs.Selection.Verdict

/-!
# The file pattern as a line

A file pattern is meant as a glob but read as a line. If it does not start with a mark, the line
selects, and it matches no file that the pattern does not describe as a glob
(`exists_line_of_pattern`): one `/` at its start is dropped, so is a backslash before a mark, `/` at
its end keeps it from matching files, and `/**` at its end matches less. With a mark there is no
line that selects (`selects_of_marked`): `!` turns it round, and `#` makes it a comment.
-/

namespace ConsoleSweep

open Glob (describes)

namespace Selection

/-- A glob without one separator at its start. -/
def unrooted (glob : List Char) : List Char := (Line.dropLeading '/' glob).2

theorem unrooted_of_head? {glob : List Char} (h : glob.head? ≠ some '/') :
    unrooted glob = glob := by
  cases glob with
  | nil => rfl
  | cons first rest =>
    have hfirst : first ≠ '/' := fun heq => h (by rw [heq]; rfl)
    rw [unrooted, Line.dropLeading, if_neg hfirst]

end Selection

namespace Line

open Selection (unrooted)

variable {text rest glob : List Char} {path : Bytes}

/-- A text without a separator at its end is kept, as any line that is not just for directories. -/
theorem eq_of_dropTrailingSlash (h : dropTrailingSlash rest = (false, glob)) : glob = rest := by
  unfold dropTrailingSlash at h
  split at h <;> cases h
  rfl

/-- What a glob in its place matches as a line, it matches as a glob. -/
theorem describes_of_spelled {tied : Bool} (hplaced : tied = true ∨ '/' ∈ glob)
    {tokens : List Glob.Token} (hparse : Glob.parse (spelled tied glob) = .ok tokens)
    (haccepts : Glob.accepts tokens path = true) : describes glob path = true := by
  have hkept : (tied || '/' ∈ glob || anyDepth glob) = true := by
    rcases hplaced with h | h <;> simp [h]
  unfold spelled at hparse
  simp only [hkept, if_true] at hparse
  split at hparse
  next hbelow =>
    obtain ⟨front, rfl⟩ := List.isSuffixOf_iff_suffix.mp hbelow
    rw [List.append_assoc] at hparse
    exact Glob.describes_of_accepts_below hparse haccepts
  next =>
    rw [Glob.describes_of_parse hparse]
    exact haccepts

/-- Marks other than `!` leave a glob that describes no more than the text. -/
theorem exists_unmarked (hbang : text.head? ≠ some '!') (hslash : '/' ∈ text) :
    ∃ tied rest, unmarked text = (false, tied, rest) ∧ (tied = true ∨ '/' ∈ rest) ∧
      ∀ path, describes rest path = true → describes (unrooted text) path = true := by
  unfold unmarked
  split
  next hescaped =>
    -- the backslash is dropped, and says nothing in a glob either
    obtain ⟨c, rest, hc, rfl⟩ : ∃ c rest, (c = '!' ∨ c = '#') ∧ text = '\\' :: c :: rest := by
      rw [Bool.or_eq_true, List.isPrefixOf_iff_prefix, List.isPrefixOf_iff_prefix] at hescaped
      rcases hescaped with ⟨rest, rfl⟩ | ⟨rest, rfl⟩
      · exact ⟨'!', rest, .inl rfl, rfl⟩
      · exact ⟨'#', rest, .inr rfl, rfl⟩
    refine ⟨false, c :: rest, rfl, .inr ?_, fun path h => ?_⟩
    · simpa using hslash
    · change describes ('\\' :: c :: rest) path = true
      rwa [describes, Glob.parse_escaped hc]
  next =>
    cases text with
    | nil => cases hslash
    | cons first rest =>
      have hkept : dropLeading '!' (first :: rest) = (false, first :: rest) := by
        rw [dropLeading, if_neg (fun h => hbang (by rw [h]; rfl))]
      rw [hkept]
      by_cases hfirst : first = '/'
      · subst hfirst
        exact ⟨true, rest, rfl, .inl rfl, fun path h => h⟩
      · have hroot : dropLeading '/' (first :: rest) = (false, first :: rest) := by
          rw [dropLeading, if_neg hfirst]
        refine ⟨false, first :: rest, by rw [hroot], .inr hslash, fun path h => ?_⟩
        rwa [unrooted, hroot]

/-- A text with a separator that starts with no mark is a line that selects, and matches no file
that the text does not describe. -/
theorem exists_line_of_read (hbang : text.head? ≠ some '!') (hhash : text.head? ≠ some '#')
    (hslash : '/' ∈ text) (hend : ∀ c, text.getLast? = some c → isBlank c = false)
    {own : Option Line} (h : read text = .ok own) :
    ∃ line, own = some line ∧ line.selects = true ∧
      ∀ path, line.applies path false = true → describes (unrooted text) path = true := by
  obtain ⟨tied, rest, hmarks, hplaced, hdescribes⟩ := exists_unmarked hbang hslash
  have hne : text ≠ [] := List.ne_nil_of_mem hslash
  cases hdrop : dropTrailingSlash rest with
  | mk dirsOnly glob =>
    obtain ⟨tokens, hparse, rfl⟩ :=
      exists_tokens_of_read hhash (trimmed_of_getLast? hend) hne hmarks hdrop h
    refine ⟨_, rfl, rfl, fun path happlies => hdescribes path ?_⟩
    rw [applies, Bool.and_eq_true] at happlies
    obtain ⟨hfiles, haccepts⟩ := happlies
    have hall : dirsOnly = false := by simpa using hfiles
    subst hall
    cases eq_of_dropTrailingSlash hdrop
    exact describes_of_spelled hplaced hparse haccepts

end Line

namespace Selection

/-- A file pattern without `./` at its start. -/
def bare (pattern : List Char) : List Char :=
  if ['.', '/'].isPrefixOf pattern then pattern.drop 2 else pattern

/-- A file pattern that is read as a line with a mark: as it has a separator nothing is put before
it, and it starts with `!` or `#`. -/
def Marked (pattern : List Char) : Prop :=
  '/' ∈ bare pattern ∧ ((bare pattern).head? = some '!' ∨ (bare pattern).head? = some '#')

instance (pattern : List Char) : Decidable (Marked pattern) :=
  inferInstanceAs (Decidable (_ ∧ _))

theorem anchored_eq (pattern : List Char) : anchored pattern =
    if '/' ∈ bare pattern then bare pattern else '/' :: bare pattern := rfl

/-- The separator that a pattern without one gets is the one that is left out. -/
theorem unrooted_anchored (pattern : List Char) :
    unrooted (anchored pattern) = unrooted (bare pattern) := by
  rw [anchored_eq]
  split
  · rfl
  next hnone =>
    exact (unrooted_of_head? fun hhead => hnone (List.mem_of_head? hhead)).symm

/-- The separator put before a pattern is no blank, so the line ends as the pattern does. -/
theorem getLast?_anchored {pattern : List Char}
    (h : ∀ c, pattern.getLast? = some c → isBlank c = false) :
    ∀ c, (anchored pattern).getLast? = some c → isBlank c = false := by
  have hbare : ∀ c, (bare pattern).getLast? = some c → isBlank c = false := by
    intro c hc
    unfold bare at hc
    split at hc
    · rw [List.getLast?_drop] at hc
      split at hc
      · cases hc
      · exact h c hc
    · exact h c hc
  rw [anchored_eq]
  split
  · exact hbare
  · intro c hc
    rw [List.getLast?_cons] at hc
    cases hlast : (bare pattern).getLast? with
    | none =>
      rw [hlast] at hc
      cases hc
      rfl
    | some last =>
      rw [hlast] at hc
      cases hc
      exact hbare _ hlast

/-- **A pattern that starts with no mark selects, and matches no file that it does not describe.**
-/
theorem exists_line_of_pattern {pattern : List Char} (hmark : ¬ Marked pattern)
    (hend : ∀ c, pattern.getLast? = some c → isBlank c = false) {own : Option Line}
    (h : Line.read (anchored pattern) = .ok own) :
    ∃ line, own = some line ∧ line.selects = true ∧
      ∀ path, line.applies path false = true →
        describes (unrooted (bare pattern)) path = true := by
  have hhead : ∀ c, c = '!' ∨ c = '#' → (anchored pattern).head? ≠ some c := by
    intro c hc
    rw [anchored_eq]
    split
    next hslash =>
      intro hfirst
      refine hmark ⟨hslash, ?_⟩
      rcases hc with rfl | rfl
      · exact .inl hfirst
      · exact .inr hfirst
    next =>
      rcases hc with rfl | rfl
      · nofun
      · nofun
  rw [← unrooted_anchored]
  exact Line.exists_line_of_read (hhead '!' (.inl rfl)) (hhead '#' (.inr rfl))
    (slash_mem_anchored pattern) (getLast?_anchored hend) h

/-- A pattern that starts with a mark has no line that selects. -/
theorem selects_of_marked {pattern : List Char} (hmark : Marked pattern) {line : Line}
    (h : Line.read (anchored pattern) = .ok (some line)) : line.selects = false := by
  obtain ⟨hslash, hfirst⟩ := hmark
  rw [anchored_eq, if_pos hslash] at h
  rcases hfirst with hfirst | hfirst
  · obtain ⟨rest, hrest⟩ := List.head?_eq_some_iff.mp hfirst
    rw [hrest] at h
    exact Line.selects_of_read_bang h
  · -- a comment is no line
    unfold Line.read at h
    simp only [hfirst, beq_self_eq_true, Bool.true_or, if_true] at h
    cases h

/-- A selection whose pattern starts with a mark has no line that selects. -/
theorem Layout.selects_of_marked {s : Selection} {pattern : String} {own : Option Line}
    {exclusions : List Line} (h : s.Layout pattern own exclusions)
    (hmark : Marked pattern.toList) : ∀ line ∈ s.lines, line.selects = false := by
  intro line hline
  rw [h.lines, List.mem_append, Option.mem_toList] at hline
  rcases hline with hown | hline
  · exact Selection.selects_of_marked hmark (hown ▸ h.read)
  · exact h.rejects line hline

end Selection

end ConsoleSweep
