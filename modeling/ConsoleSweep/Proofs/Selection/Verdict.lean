import ConsoleSweep.Proofs.Selection.Lines

/-!
# What a selection says

A selection is built from a file pattern and exclusion globs. Its `Layout` is one line for the
pattern, unless that reads as none, and after it lines that only reject, because every exclusion is
turned round before it is read. So `selected` is the verdict on just what the line of the pattern
selects and no exclusion applies to (`Layout.verdict_eq_selected_iff`).
-/

namespace ConsoleSweep

namespace Selection

/-! ## Layout -/

/-- The lines of a selection: one for the file pattern, unless that reads as none, and then those of
the exclusions, which reject. -/
structure Layout (s : Selection) (pattern : String) (own : Option Line) (exclusions : List Line) :
    Prop where
  read : Line.read (anchored pattern.toList) = .ok own
  lines : s.lines = own.toList ++ exclusions
  rejects : ∀ line ∈ exclusions, line.selects = false

/-- Every line of an exclusion is turned round. -/
theorem exists_bang_of_mem_exclusionLines {glob line : List Char} (h : line ∈ exclusionLines glob) :
    ∃ rest, line = '!' :: rest := by
  unfold exclusionLines at h
  split at h
  · simp only [List.mem_cons, List.not_mem_nil, or_false] at h
    rcases h with rfl | rfl
    · exact ⟨_, rfl⟩
    · exact ⟨_, rfl⟩
  · simp only [List.mem_cons, List.not_mem_nil, or_false] at h
    exact ⟨glob, h⟩

theorem selects_of_ofText? {glob text : List Char} (htext : text ∈ exclusionLines glob)
    {line : Line} (h : Line.ofText? text = some line) : line.selects = false := by
  obtain ⟨rest, rfl⟩ := exists_bang_of_mem_exclusionLines htext
  unfold Line.ofText? at h
  split at h
  next own hread => exact Line.selects_of_read_bang (h ▸ hread)
  next => cases h

/-- A selection that can be built has the line of the pattern and those of the exclusions. -/
theorem layout_of_ofOptions {s : Selection} {o : Options} (h : ofOptions o = .ok s) :
    s.Layout o.pattern (Line.ofText? (anchored o.pattern.toList))
      ((o.excludeGlobs.flatMap fun glob => exclusionLines glob.toList).filterMap Line.ofText?) := by
  obtain ⟨hread, hlines, -⟩ := build_eq_ok_iff.mp h
  refine ⟨?_, ?_, fun line hline => ?_⟩
  · obtain ⟨own, hown⟩ := hread _ List.mem_cons_self
    rw [Line.ofText?_of_read hown, hown]
  · rw [hlines, texts, List.filterMap_cons]
    cases Line.ofText? (anchored o.pattern.toList) <;> rfl
  · obtain ⟨text, htext, hsome⟩ := List.mem_filterMap.mp hline
    obtain ⟨glob, -, htext⟩ := List.mem_flatMap.mp htext
    exact selects_of_ofText? htext hsome

/-- A selection that can be built has a layout. -/
theorem exists_layout {s : Selection} {o : Options} (h : ofOptions o = .ok s) :
    ∃ own exclusions, s.Layout o.pattern own exclusions :=
  ⟨_, _, layout_of_ofOptions h⟩

/-! ## Verdicts -/

variable {s : Selection} {path : Bytes} {isDir : Bool}

/-- A selection says nothing about what no line applies to, unless it is a file and some line
selects. -/
theorem verdict_eq_unmentioned_iff : s.verdict path isDir = .unmentioned ↔
    (∀ line ∈ s.lines, line.applies path isDir = false) ∧
      (isDir = true ∨ ∀ line ∈ s.lines, line.selects = false) := by
  unfold verdict
  cases hfind : s.lines.reverse.find? (·.applies path isDir) with
  | some line =>
    have happlies := List.find?_some hfind
    have hmem := List.mem_reverse.mp (List.mem_of_find?_eq_some hfind)
    constructor
    · intro h
      change (if line.selects then Verdict.selected else .rejected) = .unmentioned at h
      split at h <;> cases h
    · rintro ⟨hnone, -⟩
      rw [hnone line hmem] at happlies
      cases happlies
  | none =>
    have hnone : ∀ line ∈ s.lines, line.applies path isDir = false := by
      simpa using hfind
    refine Iff.trans ?_ (and_iff_right hnone).symm
    cases isDir <;> simp

/-- The last line that applies decides. -/
theorem verdict_eq_selected_iff_find : s.verdict path isDir = .selected ↔
    ∃ line, s.lines.reverse.find? (·.applies path isDir) = some line ∧ line.selects = true := by
  unfold verdict
  cases s.lines.reverse.find? (·.applies path isDir) with
  | some line => simp
  | none =>
    simp only [reduceCtorEq, false_and, exists_false, iff_false]
    split <;> nofun

/-- With more lines that reject, what they apply to is rejected and all else is as it was. -/
theorem verdict_append {lines others : List Line} (h : ∀ line ∈ others, line.selects = false)
    (path : Bytes) (isDir : Bool) : (⟨lines ++ others⟩ : Selection).verdict path isDir =
      if others.any (·.applies path isDir) then .rejected
      else (⟨lines⟩ : Selection).verdict path isDir := by
  have hselects : (lines ++ others).any (·.selects) = lines.any (·.selects) := by
    have hnone : others.any (·.selects) = false := by
      rw [List.any_eq_false]
      intro line hline
      rw [h line hline]
      nofun
    rw [List.any_append, hnone, Bool.or_false]
  unfold verdict
  dsimp only
  rw [List.reverse_append, List.find?_append, hselects]
  cases hfind : others.reverse.find? (·.applies path isDir) with
  | some last =>
    have hmem := List.mem_reverse.mp (List.mem_of_find?_eq_some hfind)
    have happlies := List.find?_some hfind
    have hany : others.any (·.applies path isDir) = true :=
      List.any_eq_true.mpr ⟨last, hmem, happlies⟩
    rw [if_pos hany, Option.some_or]
    dsimp only
    rw [h last hmem, if_neg (by decide)]
  | none =>
    have hany : others.any (·.applies path isDir) = false := by
      rw [← List.any_reverse, ← Bool.not_eq_true, List.any_eq_true]
      rintro ⟨line, hline, happlies⟩
      exact List.find?_eq_none.mp hfind line hline happlies
    rw [hany, Option.none_or]
    rfl

namespace Layout

variable {pattern : String} {own : Option Line} {exclusions : List Line}

/-- The line of the pattern decides on what no exclusion applies to; the rest is rejected. -/
theorem verdict_eq (h : s.Layout pattern own exclusions) (path : Bytes) (isDir : Bool) :
    s.verdict path isDir = if exclusions.any (·.applies path isDir) then .rejected
      else (⟨own.toList⟩ : Selection).verdict path isDir := by
  have hs : s = ⟨own.toList ++ exclusions⟩ := by rw [← h.lines]
  rw [hs, verdict_append h.rejects]

/-- Just what the line of the pattern selects and no exclusion applies to is selected. -/
theorem verdict_eq_selected_iff (h : s.Layout pattern own exclusions) :
    s.verdict path isDir = .selected ↔
      ∃ line, own = some line ∧ line.selects = true ∧ line.applies path isDir = true ∧
        ∀ other ∈ exclusions, other.applies path isDir = false := by
  have hnone : (∀ other ∈ exclusions, other.applies path isDir = false) ↔
      ¬ exclusions.any (·.applies path isDir) = true := by
    simp
  rw [h.verdict_eq]
  simp only [hnone]
  split
  next hany => simp [hany]
  next hkept =>
    rw [verdict_eq_selected_iff_find]
    cases own with
    | none => simp
    | some line =>
      by_cases happlies : line.applies path isDir = true
      · simp [happlies, hkept]
      · simp [happlies]

end Layout

end Selection

end ConsoleSweep
