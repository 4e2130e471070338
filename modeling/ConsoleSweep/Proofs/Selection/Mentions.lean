import ConsoleSweep.Proofs.Options.Exclusions
import ConsoleSweep.Proofs.Selection.Verdict

/-!
# What the lines of a run have a say about

An exclusion gives two lines, its glob and the glob of the directory itself, its twin, which is only
for directories. Both are turned round, which does not change what they have a say about, so
`Spared` says without any line that no exclusion applies (`not_applies_iff`). The line of the file
pattern is there and selects if the pattern starts with no mark, so all that a run says about a path
is said by what its texts have a say about (`verdict_of_unmarked`).
-/

namespace ConsoleSweep

namespace Selection

open Line (ofText? mentions)

/-- The glob of the directory itself that an exclusion glob says everything below of. -/
def twin (glob : List Char) : List Char := glob.dropLast.dropLast

theorem toList_globFor (name : List Char) :
    (Options.globFor name).toList = '*' :: '*' :: '/' :: (name ++ ['/', '*', '*']) := by
  rw [Options.globFor, String.toList_ofList]
  simp

theorem twin_globFor (name : List Char) :
    twin (Options.globFor name).toList = '*' :: '*' :: '/' :: (name ++ ['/']) := by
  have hsplit : (Options.globFor name).toList =
      ('*' :: '*' :: '/' :: (name ++ ['/'])) ++ ['*'] ++ ['*'] := by
    rw [toList_globFor]
    simp
  rw [twin, hsplit, List.dropLast_concat, List.dropLast_concat]

/-- An exclusion gives its glob and its twin, turned round. -/
theorem exclusionLines_globFor (name : List Char) :
    exclusionLines (Options.globFor name).toList =
      ['!' :: (Options.globFor name).toList, '!' :: twin (Options.globFor name).toList] := by
  have hends : ['*', '*'].isSuffixOf (Options.globFor name).toList = true := by
    rw [List.isSuffixOf_iff_suffix, toList_globFor]
    exact ⟨'*' :: '*' :: '/' :: (name ++ ['/']), by simp⟩
  rw [exclusionLines, if_pos hends]
  rfl

variable {o : Options} {glob : String} {path : Bytes} {isDir : Bool}

/-- The twin of an exclusion has no say about files. -/
theorem mentions_twin_file (h : glob ∈ o.excludeGlobs) :
    mentions (twin glob.toList) path false = false := by
  obtain ⟨name, rfl⟩ := Options.exists_name_of_mem_excludeGlobs h
  have htrimmed : Line.trimmed ('*' :: '/' :: (name ++ ['/'])) = '*' :: '/' :: (name ++ ['/']) := by
    refine Line.trimmed_of_getLast? fun c hc => ?_
    rw [← List.cons_append, ← List.cons_append, List.getLast?_concat] at hc
    cases hc
    rfl
  have hdirs : (Line.dropTrailingSlash ('*' :: '*' :: '/' :: (name ++ ['/']))).1 = true :=
    Line.dropTrailingSlash_fst ('*' :: '*' :: '/' :: name)
  rw [twin_globFor, mentions, Line.ofText?_star, htrimmed, hdirs, Option.any_map]
  simp [Line.applies]

/-- No exclusion has a say about a path, neither with its glob nor with the twin. -/
def Spared (o : Options) (path : Bytes) (isDir : Bool) : Prop :=
  ∀ glob ∈ o.excludeGlobs,
    mentions glob.toList path isDir = false ∧ mentions (twin glob.toList) path isDir = false

instance (o : Options) (path : Bytes) (isDir : Bool) : Decidable (Spared o path isDir) :=
  inferInstanceAs (Decidable (∀ glob ∈ o.excludeGlobs, _))

/-- A file is spared if no glob has a say about it. -/
theorem spared_file_iff :
    Spared o path false ↔ ∀ glob ∈ o.excludeGlobs, mentions glob.toList path false = false :=
  forall₂_congr fun _ hglob => and_iff_left (mentions_twin_file hglob)

/-- **No line of an exclusion applies to what is spared.** -/
theorem not_applies_iff : (∀ line ∈ (o.excludeGlobs.flatMap fun glob =>
      exclusionLines glob.toList).filterMap ofText?, line.applies path isDir = false) ↔
    Spared o path isDir := by
  have htext : ∀ text, mentions text path isDir = false ↔
      ∀ line, ofText? text = some line → line.applies path isDir = false := by
    intro text
    rw [mentions]
    cases ofText? text <;> simp
  have hglob : ∀ glob ∈ o.excludeGlobs,
      (∀ text ∈ exclusionLines glob.toList, mentions text path isDir = false) ↔
        mentions glob.toList path isDir = false ∧
          mentions (twin glob.toList) path isDir = false := by
    intro glob h
    obtain ⟨name, rfl⟩ := Options.exists_name_of_mem_excludeGlobs h
    rw [exclusionLines_globFor, List.forall_mem_cons, List.forall_mem_singleton, twin_globFor,
      toList_globFor, Line.mentions_bang_star, Line.mentions_bang_star]
  rw [Spared, ← forall₂_congr hglob]
  simp only [htext, List.mem_filterMap, List.mem_flatMap]
  constructor
  · intro h glob hglob text htext line hline
    exact h line ⟨text, ⟨glob, hglob, htext⟩, hline⟩
  · rintro h line ⟨text, ⟨glob, hglob, htext⟩, hline⟩
    exact h glob hglob text htext line hline

/-- **What a run says about a path** if its pattern starts with no mark. -/
theorem verdict_of_unmarked {s : Selection} (hs : ofOptions o = .ok s)
    (hbang : (anchored o.pattern.toList).head? ≠ some '!')
    (hhash : (anchored o.pattern.toList).head? ≠ some '#') (path : Bytes) (isDir : Bool) :
    s.verdict path isDir =
      if ¬ Spared o path isDir then .rejected
      else if mentions (anchored o.pattern.toList) path isDir then .selected
      else if isDir then .unmentioned else .rejected := by
  have hlayout := layout_of_ofOptions hs
  obtain ⟨line, hline, hselects⟩ :=
    Line.exists_line_of_unmarked hbang hhash (slash_mem_anchored _) hlayout.read
  have hspared : ((o.excludeGlobs.flatMap fun glob => exclusionLines glob.toList).filterMap
      ofText?).any (·.applies path isDir) = true ↔ ¬ Spared o path isDir := by
    rw [← not_applies_iff, List.any_eq_true]
    push Not
    simp only [Bool.not_eq_false]
  rw [hlayout.verdict_eq, mentions, hline, Option.any_some]
  refine ite_congr (propext hspared) (fun _ => rfl) fun _ => ?_
  cases happlies : line.applies path isDir with
  | true => simp [verdict, happlies, hselects]
  | false => cases isDir <;> simp [verdict, happlies, hselects]

end Selection

end ConsoleSweep
