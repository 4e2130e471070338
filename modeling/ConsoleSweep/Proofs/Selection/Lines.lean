import ConsoleSweep.Proofs.Selection.Reading
import ConsoleSweep.Proofs.Sequence

/-!
# The lines of a selection

Each line of a selection is read from a text of its own: the anchored file pattern, and then the
texts of the exclusion globs. `build_eq_ok_iff` says that a selection can be built if every text can
be read and the engine refuses no glob, and that its lines are then those of the texts, in order.
-/

namespace ConsoleSweep

namespace Selection

/-- A file pattern as a line has a separator. -/
theorem slash_mem_anchored (pattern : List Char) : '/' ∈ anchored pattern := by
  unfold anchored
  extract_lets bare
  split
  next hslash => exact hslash
  next => exact List.mem_cons_self

/-- The texts that the lines of a selection are read from. -/
def texts (pattern : String) (globs : List String) : List (List Char) :=
  anchored pattern.toList :: globs.flatMap fun glob => exclusionLines glob.toList

/-- The lines of the exclusion globs can be read if each of their texts can. -/
theorem mapM_exclusionLines_eq_ok_iff {globs : List String} {read : List (List (Option Line))} :
    (globs.mapM fun glob => (exclusionLines glob.toList).mapM fun text =>
        (Line.read text).mapError fun fault => (glob, fault)) = .ok read ↔
      (∀ glob ∈ globs, ∀ text ∈ exclusionLines glob.toList, ∃ own, Line.read text = .ok own) ∧
        read = globs.map fun glob => (exclusionLines glob.toList).map Line.ofText? := by
  have hglob : ∀ (glob : String) (lines : List (Option Line)),
      ((exclusionLines glob.toList).mapM fun text =>
          (Line.read text).mapError fun fault => (glob, fault)) = .ok lines ↔
        (∀ text ∈ exclusionLines glob.toList, ∃ own, Line.read text = .ok own) ∧
          lines = (exclusionLines glob.toList).map Line.ofText? := by
    intro glob lines
    have hread : ∀ text own, ((Line.read text).mapError fun fault => (glob, fault)) = .ok own →
        Line.ofText? text = own := fun text own h =>
      Line.ofText?_of_read (mapError_eq_ok_iff.mp h)
    rw [mapM_eq_ok_iff hread]
    simp only [mapError_eq_ok_iff]
  rw [mapM_eq_ok_iff fun glob lines h => ((hglob glob lines).mp h).2.symm]
  simp only [hglob]
  refine and_congr_left fun _ => forall₂_congr fun glob _ => ?_
  exact ⟨fun ⟨_, h, _⟩ => h, fun h => ⟨_, h, rfl⟩⟩

/-- **A selection can be built** if every text can be read and the engine refuses no glob, and then
its lines are those of the texts. -/
theorem build_eq_ok_iff {pattern : String} {globs : List String} {s : Selection} :
    build pattern globs = .ok s ↔
      (∀ text ∈ texts pattern globs, ∃ own, Line.read text = .ok own) ∧
        s.lines = (texts pattern globs).filterMap Line.ofText? ∧
        Glob.refused? (s.lines.map (·.glob)) = none := by
  have htexts : (∀ text ∈ texts pattern globs, ∃ own, Line.read text = .ok own) ↔
      (∃ own, Line.read (anchored pattern.toList) = .ok own) ∧
        ∀ glob ∈ globs, ∀ text ∈ exclusionLines glob.toList, ∃ own, Line.read text = .ok own := by
    simp only [texts, List.forall_mem_cons, List.mem_flatMap]
    refine and_congr_right fun _ => ⟨fun h glob hglob text htext => h text ⟨glob, hglob, htext⟩, ?_⟩
    rintro h text ⟨glob, hglob, htext⟩
    exact h glob hglob text htext
  rw [htexts]
  unfold build
  cases hfirst : Line.read (anchored pattern.toList) with
  | error fault =>
    constructor
    · nofun
    · rintro ⟨⟨⟨own, hown⟩, -⟩, -⟩
      cases hown
  | ok own =>
    simp only [mapError_ok, bind, Except.bind]
    cases hread : globs.mapM fun glob => (exclusionLines glob.toList).mapM fun text =>
        (Line.read text).mapError fun fault => (glob, fault) with
    | error blamed =>
      constructor
      · nofun
      · rintro ⟨⟨-, hall⟩, -⟩
        cases hread.symm.trans (mapM_exclusionLines_eq_ok_iff.mpr ⟨hall, rfl⟩)
    | ok read =>
      obtain ⟨hall, rfl⟩ := mapM_exclusionLines_eq_ok_iff.mp hread
      have hlines : (own :: (globs.map fun glob =>
            (exclusionLines glob.toList).map Line.ofText?).flatten).filterMap id =
          (texts pattern globs).filterMap Line.ofText? := by
        calc _ = ((texts pattern globs).map Line.ofText?).filterMap id := by
              rw [texts, List.map_cons, Line.ofText?_of_read hfirst, List.map_flatMap,
                List.flatMap_def]
          _ = _ := by rw [List.filterMap_map, Function.id_comp]
      dsimp only
      rw [hlines]
      constructor
      · intro h
        split at h
        · cases h
        next hnone =>
          cases h
          exact ⟨⟨⟨own, rfl⟩, hall⟩, rfl, hnone⟩
      · rintro ⟨-, hs, hnone⟩
        rw [hs] at hnone
        rw [hnone]
        exact congrArg Except.ok (congrArg Selection.mk hs.symm)

end Selection

end ConsoleSweep
