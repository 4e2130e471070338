import ConsoleSweep.Proofs.FileTree.Strip

/-!
# Two trees that hold different files

Two trees of one shape may hold different bytes in some of their files. While only files that they
have in common are read and stripped, the trees stay alongside each other: what was common stays
common, and where they differed each of them stays as it was (`Alongside.stripFile`).
-/

namespace ConsoleSweep.FileTree

open Statement (stripped findAll)

/-- Two trees hold the same at the place a path leads to. -/
def Shares (t t' : FileTree) (path : Path) : Prop :=
  ∀ loc, t.resolve? path = .ok loc → t.get? loc = t'.get? loc

/-- What has become of two trees of one shape while only what they had in common was changed, and in
both alike. -/
structure Alongside (t t' u u' : FileTree) : Prop where
  start : t.SameShape t'
  shape : t.SameShape u
  shape' : t'.SameShape u'
  common : ∀ loc, t.get? loc = t'.get? loc → u.get? loc = u'.get? loc
  apart : ∀ loc, t.get? loc ≠ t'.get? loc → u.get? loc = t.get? loc ∧ u'.get? loc = t'.get? loc

namespace Alongside

variable {t t' u u' next : FileTree} {path : Path} {removed : Nat}

theorem refl (h : t.SameShape t') : Alongside t t' t t' where
  start := h
  shape := .refl t
  shape' := .refl t'
  common := fun _ hsame => hsame
  apart := fun _ _ => ⟨rfl, rfl⟩

theorem sameShape (h : Alongside t t' u u') : u.SameShape u' :=
  (h.shape.symm.trans h.start).trans h.shape'

/-- What two trees share is still the same where a path leads. -/
theorem get?_of_shares (h : Alongside t t' u u') (hshares : t.Shares t' path) {loc : Location}
    (hloc : u.resolve? path = .ok loc) : u.get? loc = u'.get? loc := by
  rw [← h.shape.resolve?] at hloc
  exact h.common loc (hshares loc hloc)

/-- A path to what two trees share reads the same in both. -/
theorem readText (h : Alongside t t' u u') (hshares : t.Shares t' path) :
    u.readText path = u'.readText path := by
  rw [readText_eq, readText_eq, ← h.sameShape.resolve?]
  cases hloc : u.resolve? path with
  | error fault => rfl
  | ok loc =>
    have hsame := h.get?_of_shares hshares hloc
    simp only [bind, Except.bind, hsame]

/-- **Stripping a file that two trees share** does the same to both. -/
theorem stripFile (h : Alongside t t' u u') (hshares : t.Shares t' path)
    (hstrip : u.stripFile path = .ok (next, removed)) :
    ∃ next', u'.stripFile path = .ok (next', removed) ∧ Alongside t t' next next' := by
  obtain ⟨loc, text, hloc, hfile, rfl, rfl⟩ := stripFile_eq_ok_iff.mp hstrip
  have hfile' : u'.get? loc = some (.file (Utf8.encode text)) := by
    rw [← h.get?_of_shares hshares hloc]
    exact hfile
  have hloc' : u'.resolve? path = .ok loc := by
    rw [← h.sameShape.resolve?]
    exact hloc
  have hne := ne_nil_of_get?_file hfile
  have hstart : t.get? loc = t'.get? loc := by
    rw [← h.shape.resolve?] at hloc
    exact hshares loc hloc
  refine ⟨_, stripFile_eq_ok_iff.mpr ⟨loc, text, hloc', hfile', rfl, rfl⟩, ?_⟩
  exact {
    start := h.start
    shape := h.shape.trans (sameShape_put_file hfile)
    shape' := h.shape'.trans (sameShape_put_file hfile')
    common := by
      intro other hother
      by_cases heq : other = loc
      · rw [heq, get?_put_self hne, get?_put_self hne]
      · rw [get?_put_of_ne heq, get?_put_of_ne heq]
        exact h.common other hother
    apart := by
      intro other hother
      -- the place that was stripped was common to both trees
      have heq : other ≠ loc := by
        rintro rfl
        exact hother hstart
      rw [get?_put_of_ne heq, get?_put_of_ne heq]
      exact h.apart other hother }

end Alongside

end ConsoleSweep.FileTree
