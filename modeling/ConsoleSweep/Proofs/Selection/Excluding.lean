import ConsoleSweep.Proofs.Selection.Mentions

/-!
# One more exclusion

Excluding a plain name as well adds two lines at the end of a selection that only reject, and what
they reject is said by the parts of the path: `directories` are those of a path that stand for
directories, and the name must not stand among them. `exists_verdict_withExcludes` says that the new
selection can be built if the old one can, rejects just that, and otherwise says what the old one
does.
-/

namespace ConsoleSweep.Selection

open Line (ofText? mentions)
open Options (IsPlain globFor)

/-! ## The lines of a plain name -/

/-- The lines of a plain name: one for everything below its directories, and one for these. -/
def plainLines (name : List Char) : List Line :=
  [⟨Glob.insidePlain name, false, false⟩, ⟨Glob.toPlain name, false, true⟩]

theorem selects_of_mem_plainLines {name : List Char} {line : Line} (h : line ∈ plainLines name) :
    line.selects = false := by
  simp only [plainLines, List.mem_cons, List.not_mem_nil, or_false] at h
  rcases h with rfl | rfl <;> rfl

theorem not_tooNested_of_mem_plainLines {name : List Char} {line : Line}
    (h : line ∈ plainLines name) : Glob.tooNested line.glob = false := by
  simp only [plainLines, List.mem_cons, List.not_mem_nil, or_false] at h
  rcases h with rfl | rfl
  · exact Glob.not_tooNested_insidePlain
  · exact Glob.not_tooNested_toPlain

section Plain

variable {given : String} (h : IsPlain given)

include h

/-- The line of the glob of a plain name. -/
theorem read_globFor : Line.read ('!' :: (globFor given.toList).toList) =
    .ok (some ⟨Glob.insidePlain given.toList, false, false⟩) := by
  have hlast : ('*' :: '/' :: (given.toList ++ ['/', '*', '*'])).getLast? = some '*' := by
    simp [List.getLast?_cons]
  have hspelled : Line.spelled false ('*' :: '*' :: '/' :: (given.toList ++ ['/', '*', '*'])) =
      '*' :: '*' :: '/' :: (given.toList ++ ['/', '*', '*', '/', '*']) := by
    have hbelow : ['/', '*', '*'] <:+ '*' :: '*' :: '/' :: (given.toList ++ ['/', '*', '*']) :=
      List.suffix_append ('*' :: '*' :: '/' :: given.toList) _
    simp [Line.spelled, hbelow]
  rw [toList_globFor]
  refine Line.read_bang_star (fun c hc => ?_) (Line.dropTrailingSlash_of_getLast? ?_) ?_
  · rw [hlast] at hc
    cases hc
    rfl
  · rw [List.getLast?_cons, hlast]
    decide
  · rw [hspelled]
    exact Glob.parse_insidePlain h.literal

/-- The line of its twin, for directories only. -/
theorem read_twin : Line.read ('!' :: twin (globFor given.toList).toList) =
    .ok (some ⟨Glob.toPlain given.toList, false, true⟩) := by
  obtain ⟨last, hlast⟩ : ∃ last, ('*' :: '*' :: '/' :: given.toList).getLast? = some last ∧
      last ∉ Glob.special := by
    have hsome := List.getLast?_eq_some_getLast h.ne_nil
    refine ⟨given.toList.getLast h.ne_nil, ?_, h.literal _ (List.getLast_mem h.ne_nil)⟩
    rw [List.getLast?_cons, List.getLast?_cons, List.getLast?_cons, hsome]
    rfl
  have hdrop : Line.dropTrailingSlash ('*' :: '*' :: '/' :: (given.toList ++ ['/'])) =
      (true, '*' :: '*' :: '/' :: given.toList) := by
    refine Line.dropTrailingSlash_concat ('*' :: '*' :: '/' :: given.toList) ?_
    rw [hlast.1]
    rintro ⟨⟩
    exact hlast.2 (by decide)
  have hspelled : Line.spelled false ('*' :: '*' :: '/' :: given.toList) =
      '*' :: '*' :: '/' :: given.toList := by
    have hnone : ¬ ['/', '*', '*'] <:+ '*' :: '*' :: '/' :: given.toList := by
      rintro ⟨front, hfront⟩
      rw [← hfront, List.getLast?_append] at hlast
      cases hlast.1
      exact hlast.2 (by decide)
    simp [Line.spelled, hnone]
  rw [twin_globFor]
  refine Line.read_bang_star (fun c hc => ?_) hdrop ?_
  · rw [← List.cons_append, ← List.cons_append, List.getLast?_concat] at hc
    cases hc
    rfl
  · rw [hspelled]
    exact Glob.parse_toPlain h.literal

/-- The lines of a plain name are read from its texts. -/
theorem filterMap_exclusionLines :
    (exclusionLines (globFor given.toList).toList).filterMap ofText? = plainLines given.toList := by
  rw [exclusionLines_globFor]
  simp [Line.ofText?_of_read (read_globFor h), Line.ofText?_of_read (read_twin h), plainLines]

theorem exists_read_of_mem_exclusionLines {text : List Char}
    (htext : text ∈ exclusionLines (globFor given.toList).toList) :
    ∃ own, Line.read text = .ok own := by
  rw [exclusionLines_globFor] at htext
  simp only [List.mem_cons, List.not_mem_nil, or_false] at htext
  rcases htext with rfl | rfl
  · exact ⟨_, read_globFor h⟩
  · exact ⟨_, read_twin h⟩

end Plain

/-! ## Verdicts -/

/-- The parts of a path that stand for directories: all of them if it is one itself, and all but the
last if it is a file. -/
def directories (path : Bytes) (isDir : Bool) : List Bytes :=
  if isDir then partsAt slash path else (partsAt slash path).dropLast

/-- The lines of a plain name apply to the paths that it stands among the directories of. -/
theorem any_applies_iff {given : String} (h : IsPlain given) {path : Bytes} {isDir : Bool} :
    (plainLines given.toList).any (·.applies path isDir) = true ↔
      partsAt slash (Utf8.encode given) <:+: directories path isDir := by
  have hinside : Glob.accepts (Glob.insidePlain given.toList) path = true ↔
      partsAt slash (Utf8.encode given) <:+: (partsAt slash path).dropLast :=
    Glob.accepts_insidePlain_iff
  have hthere : Glob.accepts (Glob.toPlain given.toList) path = true ↔
      partsAt slash (Utf8.encode given) <:+ partsAt slash path :=
    Glob.accepts_toPlain_iff h.ne_nil
  unfold directories
  cases isDir with
  | false => simp [plainLines, Line.applies, hinside]
  | true =>
    have hlast := List.dropLast_append_getLast (partsAt_ne_nil slash path)
    simp only [if_true]
    rw [← hlast, List.infix_concat_iff, hlast, ← hinside, ← hthere]
    simp [plainLines, Line.applies, or_comm]

/-- The glob of a plain name alone says as much about files as both lines. -/
theorem mentions_globFor_iff {given : String} (h : IsPlain given) {path : Bytes} :
    mentions (globFor given.toList).toList path false = true ↔
      partsAt slash (Utf8.encode given) <:+: directories path false := by
  have hread := Line.ofText?_of_read (read_globFor h)
  rw [toList_globFor] at hread ⊢
  rw [← Line.mentions_bang_star, mentions, hread, Option.any_some, Line.applies]
  exact Glob.accepts_insidePlain_iff

/-- A name that is excluded already rejects what it stands among the directories of. -/
theorem verdict_eq_rejected_of_mem {o : Options} {s : Selection} (hs : ofOptions o = .ok s)
    {given : String} (h : IsPlain given) (hmem : globFor given.toList ∈ o.excludeGlobs)
    {path : Bytes} {isDir : Bool}
    (hbelow : partsAt slash (Utf8.encode given) <:+: directories path isDir) :
    s.verdict path isDir = .rejected := by
  obtain ⟨line, hline, happlies⟩ := List.any_eq_true.mp ((any_applies_iff h).mpr hbelow)
  rw [← filterMap_exclusionLines h] at hline
  obtain ⟨text, htext, hline⟩ := List.mem_filterMap.mp hline
  have hthere : line ∈ (o.excludeGlobs.flatMap fun glob =>
      exclusionLines glob.toList).filterMap ofText? :=
    List.mem_filterMap.mpr ⟨text, List.mem_flatMap.mpr ⟨_, hmem, htext⟩, hline⟩
  rw [(layout_of_ofOptions hs).verdict_eq,
    if_pos (List.any_eq_true.mpr ⟨line, hthere, happlies⟩)]

/-- The glob of a plain name adds its lines at the end. -/
theorem build_concat {pattern : String} {globs : List String} {s : Selection}
    (hs : build pattern globs = .ok s) {given : String} (h : IsPlain given) :
    build pattern (globs ++ [globFor given.toList]) =
      .ok ⟨s.lines ++ plainLines given.toList⟩ := by
  obtain ⟨hread, hlines, hrefused⟩ := build_eq_ok_iff.mp hs
  have htexts : texts pattern (globs ++ [globFor given.toList]) =
      texts pattern globs ++ exclusionLines (globFor given.toList).toList := by
    simp [texts]
  refine build_eq_ok_iff.mpr ⟨fun text htext => ?_, ?_, ?_⟩
  · rw [htexts] at htext
    rcases List.mem_append.mp htext with htext | htext
    · exact hread text htext
    · exact exists_read_of_mem_exclusionLines h htext
  · rw [htexts, List.filterMap_append, ← hlines, filterMap_exclusionLines h]
  · dsimp only
    rw [List.map_append]
    refine Glob.refused?_append hrefused fun glob hglob => ?_
    obtain ⟨line, hline, rfl⟩ := List.mem_map.mp hglob
    exact not_tooNested_of_mem_plainLines hline

/-- **One more plain name** is excluded without a fault, and then just the paths are rejected that
it stands among the directories of. -/
theorem exists_verdict_withExcludes {o : Options} {s : Selection} (hs : ofOptions o = .ok s)
    {given : String} (h : IsPlain given) : ∃ s', ofOptions (o.withExcludes [given]) = .ok s' ∧
      ∀ path isDir, s'.verdict path isDir =
        if partsAt slash (Utf8.encode given) <:+: directories path isDir then .rejected
        else s.verdict path isDir := by
  have hglobs := Options.excludeGlobs_withExcludes (o := o) h.excludedName?
  by_cases hmem : globFor given.toList ∈ o.excludeGlobs
  · rw [if_pos hmem] at hglobs
    refine ⟨s, ?_, fun path isDir => ?_⟩
    · rw [ofOptions, hglobs]
      exact hs
    · split
      next hbelow => exact verdict_eq_rejected_of_mem hs h hmem hbelow
      next => rfl
  · rw [if_neg hmem] at hglobs
    refine ⟨⟨s.lines ++ plainLines given.toList⟩, ?_, fun path isDir => ?_⟩
    · rw [ofOptions, hglobs]
      exact build_concat hs h
    · rw [verdict_append fun _ => selects_of_mem_plainLines]
      simp only [any_applies_iff h]

end ConsoleSweep.Selection
