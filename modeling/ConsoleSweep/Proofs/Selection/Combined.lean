import ConsoleSweep.Proofs.Options.Exclusions
import ConsoleSweep.Proofs.Selection.Verdict

/-!
# Selections with the exclusions of two

All lines of a selection stand in one list and the last that applies decides, but the lines of
exclusions are all alike: they reject. So a selection with the exclusions of two others rejects what
either of them rejects, and agrees with both on everything else (`exists_meets`). Which line comes
from which exclusion, in which order they stand and how often does not matter, and neither does it
for whether the selection can be built.
-/

namespace ConsoleSweep

namespace Options

/-- The exclusions of two runs of one pattern below one root, together. -/
structure Combines (o₁ o₂ o : Options) : Prop where
  root₁ : o₁.root = o.root
  root₂ : o₂.root = o.root
  pattern₁ : o₁.pattern = o.pattern
  pattern₂ : o₂.pattern = o.pattern
  exclude : ∀ given, given ∈ o.exclude ↔ given ∈ o₁.exclude ∨ given ∈ o₂.exclude

variable {o o₁ o₂ : Options} {glob : String}

/-- The globs of two runs together. -/
theorem Combines.mem_excludeGlobs_iff (h : Combines o₁ o₂ o) :
    glob ∈ o.excludeGlobs ↔ glob ∈ o₁.excludeGlobs ∨ glob ∈ o₂.excludeGlobs := by
  simp only [Options.mem_excludeGlobs_iff, h.exclude, ← exists_or, ← or_and_right]
  exact exists_congr fun given => and_congr_left fun _ => or_or_distrib_left

end Options

namespace Selection

open Options (Combines)

/-- On every path, one of two selections rejects and so does a third, or all three agree. -/
def Meets (s₁ s₂ s : Selection) : Prop := ∀ path isDir,
  s.verdict path isDir = .rejected ∧
      (s₁.verdict path isDir = .rejected ∨ s₂.verdict path isDir = .rejected) ∨
    s₁.verdict path isDir = s.verdict path isDir ∧ s₂.verdict path isDir = s.verdict path isDir

variable {o o₁ o₂ : Options} {s s₁ s₂ : Selection} {path : Bytes} {isDir : Bool}

theorem mem_texts_iff {pattern : String} {globs : List String} {text : List Char} :
    text ∈ texts pattern globs ↔ text = anchored pattern.toList ∨
      ∃ glob ∈ globs, text ∈ exclusionLines glob.toList := by
  rw [texts, List.mem_cons, List.mem_flatMap]

/-- The lines of two selections together are read from the texts of both. -/
theorem mem_texts_combined (h : Combines o₁ o₂ o) {text : List Char} :
    text ∈ texts o.pattern o.excludeGlobs ↔
      text ∈ texts o₁.pattern o₁.excludeGlobs ∨ text ∈ texts o₂.pattern o₂.excludeGlobs := by
  simp only [mem_texts_iff, h.pattern₁, h.pattern₂, h.mem_excludeGlobs_iff, or_and_right, exists_or]
  exact or_or_distrib_left

/-- If the lines of two selections can be read and matched, so can those of both together. -/
theorem exists_ofOptions_combined (h : Combines o₁ o₂ o) (h₁ : ofOptions o₁ = .ok s₁)
    (h₂ : ofOptions o₂ = .ok s₂) : ∃ s, ofOptions o = .ok s := by
  obtain ⟨hread₁, hlines₁, hrefused₁⟩ := build_eq_ok_iff.mp h₁
  obtain ⟨hread₂, hlines₂, hrefused₂⟩ := build_eq_ok_iff.mp h₂
  rw [Glob.refused?_eq_none_iff, hlines₁] at hrefused₁
  rw [Glob.refused?_eq_none_iff, hlines₂] at hrefused₂
  refine ⟨⟨(texts o.pattern o.excludeGlobs).filterMap Line.ofText?⟩,
    build_eq_ok_iff.mpr ⟨fun text htext => ?_, rfl, ?_⟩⟩
  · rcases (mem_texts_combined h).mp htext with htext | htext
    · exact hread₁ text htext
    · exact hread₂ text htext
  · refine Glob.refused?_eq_none_iff.mpr fun glob hglob => ?_
    obtain ⟨line, hline, rfl⟩ := List.mem_map.mp hglob
    obtain ⟨text, htext, hsome⟩ := List.mem_filterMap.mp hline
    rcases (mem_texts_combined h).mp htext with htext | htext
    · exact hrefused₁ _ (List.mem_map_of_mem (List.mem_filterMap.mpr ⟨text, htext, hsome⟩))
    · exact hrefused₂ _ (List.mem_map_of_mem (List.mem_filterMap.mpr ⟨text, htext, hsome⟩))

/-- Whether a line of an exclusion applies. -/
def excludes (o : Options) (path : Bytes) (isDir : Bool) : Bool :=
  ((o.excludeGlobs.flatMap fun glob => exclusionLines glob.toList).filterMap Line.ofText?).any
    (·.applies path isDir)

/-- What an exclusion applies to is rejected; on the rest the line of the pattern decides. -/
theorem verdict_of_ofOptions (h : ofOptions o = .ok s) (path : Bytes) (isDir : Bool) :
    s.verdict path isDir = if excludes o path isDir then .rejected
      else (⟨(Line.ofText? (anchored o.pattern.toList)).toList⟩ : Selection).verdict path isDir :=
  (layout_of_ofOptions h).verdict_eq path isDir

/-- The exclusions of two runs together apply to what those of either apply to. -/
theorem excludes_combined (h : Combines o₁ o₂ o) (path : Bytes) (isDir : Bool) :
    excludes o path isDir = (excludes o₁ path isDir || excludes o₂ path isDir) := by
  rw [Bool.eq_iff_iff, Bool.or_eq_true]
  simp only [excludes, List.any_eq_true, List.mem_filterMap, List.mem_flatMap,
    h.mem_excludeGlobs_iff, or_and_right, exists_or]

/-- **The exclusions of two selections together** make a selection that can be built, and it rejects
what either of the two rejects and agrees with both on the rest. -/
theorem exists_meets (h : Combines o₁ o₂ o) (h₁ : ofOptions o₁ = .ok s₁)
    (h₂ : ofOptions o₂ = .ok s₂) : ∃ s, ofOptions o = .ok s ∧ Meets s₁ s₂ s := by
  obtain ⟨s, hs⟩ := exists_ofOptions_combined h h₁ h₂
  refine ⟨s, hs, fun path isDir => ?_⟩
  rw [verdict_of_ofOptions hs, verdict_of_ofOptions h₁, verdict_of_ofOptions h₂,
    excludes_combined h, h.pattern₁, h.pattern₂]
  cases excludes o₁ path isDir with
  | true => exact .inl ⟨rfl, .inl rfl⟩
  | false =>
    cases excludes o₂ path isDir with
    | true => exact .inl ⟨rfl, .inr rfl⟩
    | false => exact .inr ⟨rfl, rfl⟩

end Selection

end ConsoleSweep
