import ConsoleSweep.Proofs.FileTree.Size
import ConsoleSweep.Proofs.Sweep.Repeat

/-!
# Running again and again

One run need not get rid of all statements, as stripping a text may put new ones together. Running
again and again does: a run that removes anything makes the collected files smaller, thirteen bytes
for each statement at least, and nothing makes them larger again. So `converges_of_ok` bounds the
number of runs that are completed by the bytes there are at the start; the run after them finds
nothing, and so does every later one.

## Shape of the proof

* `Ready` is the invariant: the same files are collected, and all of them can be read. Stripping
  keeps the shape of the tree and leaves texts, so a run keeps it.
* `pass_of_ready` is one run: it finds nothing and changes nothing, or it is completed and the
  collected files shrink.
* `settles_of_ready` goes by induction on the bytes of the collected files.
-/

namespace ConsoleSweep

open ConsoleSweep.Action
open Statement (findAll)

namespace Setup

/-- How a run on a tree ends, on a sink without a limit. -/
def endsOn (s : Setup) (tree : FileTree) : Except Failure Outcome :=
  upshot (s.run (.start tree none []))

/-- The tree that a run leaves behind. -/
def swept (s : Setup) (tree : FileTree) : FileTree := (ending (s.run (.start tree none []))).tree

/-- The number of bytes of the files that collected paths lead to. -/
def collectedSize (s : Setup) (files : List Path) (tree : FileTree) : Nat :=
  tree.totalSize (files.map s.options.root.join)

/-- A tree in which a run collects files that can all be read. -/
structure Ready (s : Setup) (files : List Path) (tree : FileTree) : Prop where
  collected : collect s.options tree = .ok files
  readable : ∀ file ∈ files, tree.Readable (s.options.root.join file)

/-- What one run does to a tree: it finds nothing and leaves the tree as it is, or it is completed,
has removed something, and has made the collected files smaller by thirteen bytes for each statement
removed at least. -/
inductive Pass (s : Setup) (files : List Path) (tree : FileTree) : Prop where
  | settled (hends : s.endsOn tree = .ok .nothingFound) (hsame : s.swept tree = tree)
  | shrunk (summary : Summary) (hends : s.endsOn tree = .ok (.completed summary))
      (hsome : 1 ≤ summary.removed)
      (hsize : s.collectedSize files (s.swept tree) + 13 * summary.removed ≤
        s.collectedSize files tree)

variable {s : Setup} {tree last : FileTree} {files : List Path} {paths : List Path}
  {counts : List Nat}

/-! ## One run -/

/-- Stripping files keeps what is collected, and keeps it readable. -/
theorem Ready.stripFiles (h : s.Ready files tree)
    (hstrip : tree.stripFiles paths = .ok (last, counts)) : s.Ready files last where
  collected := by
    rw [← collect_congr (FileTree.sameShape_stripFiles hstrip)]
    exact h.collected
  readable file hfile := FileTree.exists_readText_stripFiles hstrip (h.readable file hfile)

/-- Files that hold statements are collected. -/
theorem affected_subset (s : Setup) (tree : FileTree) (files : List Path) :
    s.affected tree files ⊆ files.map s.options.root.join :=
  fun _ hpath => (List.mem_filter.mp hpath).1

/-- Where there are files with statements, statements are removed: the first file is stripped as it
is at the start. -/
theorem one_le_sum_of_affected (hsome : s.affected tree files ≠ [])
    (hstrip : tree.stripFiles (s.affected tree files) = .ok (last, counts)) :
    1 ≤ counts.sum := by
  obtain ⟨path, rest, haffected⟩ := List.exists_cons_of_ne_nil hsome
  have hmem : path ∈ s.affected tree files := haffected ▸ List.mem_cons_self
  have hdirty : findAll (tree.textOf path) ≠ [] := by
    have hholds := (List.mem_filter.mp hmem).2
    simpa [FileTree.hasStatements] using hholds
  rw [haffected] at hstrip
  obtain ⟨next, removed, others, hfirst, -, rfl⟩ := FileTree.stripFiles_cons_eq_ok_iff.mp hstrip
  obtain ⟨loc, text, hloc, hfile, -, rfl⟩ := FileTree.stripFile_eq_ok_iff.mp hfirst
  rw [FileTree.textOf_of_readText (FileTree.readText_eq_ok_iff.mpr ⟨loc, hloc, hfile⟩)] at hdirty
  have hpos := List.length_pos_iff.mpr hdirty
  rw [List.sum_cons]
  omega

section Agreed

variable (hothers : s.others = .none) (hreal : s.options.dryRun = false)
  (hagrees : s.confirmer = .fixed true)

include hothers hreal hagrees

/-- **One run** from a tree whose collected files can be read: it settles or shrinks, and the same
files can be collected and read again. -/
theorem pass_of_ready (h : s.Ready files tree) :
    s.Pass files tree ∧ s.Ready files (s.swept tree) := by
  have hroom : (World.start tree none []).sink.room = none := rfl
  rcases agreed_cases hothers hreal hagrees hroom h.collected h.readable with
    ⟨-, w', hruns, hsame⟩ | ⟨hsome, counts, w', hruns, hcompleted⟩
  · have hends : s.endsOn tree = .ok .nothingFound := by rw [endsOn, hruns]; rfl
    have hswept : s.swept tree = tree := by rw [swept, hruns]; exact hsame
    refine ⟨.settled hends hswept, ?_⟩
    rw [hswept]
    exact h
  · have hends : s.endsOn tree = .ok (.completed
        ⟨files.length, (s.affected tree files).length, counts.sum⟩) := by rw [endsOn, hruns]; rfl
    have hstrip : tree.stripFiles (s.affected tree files) = .ok (s.swept tree, counts) := by
      rw [swept, hruns]
      exact hcompleted.tree
    have hsize := FileTree.totalSize_stripFiles (affected_subset s tree files) hstrip
    exact ⟨.shrunk _ hends (one_le_sum_of_affected hsome hstrip) hsize, h.stripFiles hstrip⟩

/-! ## Many runs -/

/-- However often runs are repeated, the same files are collected and can be read. -/
theorem ready_iterate (h : s.Ready files tree) (n : Nat) : s.Ready files (s.swept^[n] tree) := by
  induction n with
  | zero => exact h
  | succ n ih =>
    rw [Function.iterate_succ_apply']
    exact (pass_of_ready hothers hreal hagrees ih).2

/-- **Runs settle.** The first few runs are completed, and use up thirteen bytes of the collected
files each; all later ones find nothing. -/
theorem settles_of_ready (h : s.Ready files tree) :
    ∃ k, 13 * k ≤ s.collectedSize files tree ∧
      (∀ n < k, ∃ summary, s.endsOn (s.swept^[n] tree) = .ok (.completed summary)) ∧
      ∀ n, k ≤ n → s.endsOn (s.swept^[n] tree) = .ok .nothingFound ∧
        s.swept^[n] tree = s.swept^[k] tree := by
  induction hbytes : s.collectedSize files tree using Nat.strong_induction_on generalizing tree with
  | _ bytes ih =>
  obtain ⟨hpass, hnext⟩ := pass_of_ready hothers hreal hagrees h
  cases hpass with
  | settled hends hsame =>
    refine ⟨0, Nat.zero_le _, fun n hn => absurd hn n.not_lt_zero, fun n _ => ?_⟩
    have hfixed : s.swept^[n] tree = tree := Function.iterate_fixed hsame n
    rw [hfixed]
    exact ⟨hends, rfl⟩
  | shrunk summary hends hsome hsize =>
    -- what is left is smaller, so the runs after this one settle
    obtain ⟨k, hk, hcompleted, hsettled⟩ := ih _ (by omega) hnext rfl
    refine ⟨k + 1, by omega, fun n hn => ?_, fun n hn => ?_⟩
    · cases n with
      | zero => exact ⟨summary, hends⟩
      | succ n => exact hcompleted n (by omega)
    · obtain ⟨m, rfl⟩ : ∃ m, n = m + 1 := ⟨n - 1, by omega⟩
      exact hsettled m (by omega)

end Agreed

/-- **Repeated runs converge.** If a run that agrees by itself ends well, then running again and
again always collects the same files and always ends well. Every run finds nothing and changes
nothing, or it is completed, removes at least one statement, and makes the files that collected
paths lead to smaller by thirteen bytes for each statement. So at most one run for every thirteen
bytes at the start is completed; from then on runs find nothing and the tree stays the same. -/
theorem converges_of_ok (o : Options) (p : Palette) (hreal : o.dryRun = false) (tree : FileTree)
    {first : Outcome} (h : (Setup.mk o p (.fixed true) .none).endsOn tree = .ok first) :
    let s : Setup := ⟨o, p, .fixed true, .none⟩
    ∃ files,
      (∀ n, collect o (s.swept^[n] tree) = .ok files) ∧
      (∀ n, s.Pass files (s.swept^[n] tree)) ∧
      ∃ k ≤ s.collectedSize files tree / 13,
        (∀ n < k, ∃ summary, s.endsOn (s.swept^[n] tree) = .ok (.completed summary)) ∧
        ∀ n, k ≤ n → s.endsOn (s.swept^[n] tree) = .ok .nothingFound ∧
          s.swept^[n] tree = s.swept^[k] tree := by
  intro s
  obtain ⟨w', hruns⟩ : ∃ w', s.run (.start tree none []) = .ok first w' := by
    have hends : upshot (s.run (.start tree none [])) = .ok first := h
    cases hr : s.run (.start tree none []) with
    | ok outcome w' =>
      rw [hr] at hends
      cases hends
      exact ⟨w', rfl⟩
    | error e w' =>
      rw [hr] at hends
      cases hends
  obtain ⟨files, counts, hcollect, hread, -⟩ :=
    exists_stripFiles_of_agreed (s := s) rfl hreal rfl rfl hruns
  have hready : s.Ready files tree := ⟨hcollect, hread⟩
  have hready' := ready_iterate rfl hreal rfl hready
  obtain ⟨k, hk, hcompleted, hsettled⟩ := settles_of_ready rfl hreal rfl hready
  refine ⟨files, fun n => (hready' n).collected,
    fun n => (pass_of_ready rfl hreal rfl (hready' n)).1, k, ?_, hcompleted, hsettled⟩
  rw [Nat.le_div_iff_mul_le (by decide)]
  omega

set_option maxRecDepth 10000 in
theorem converges_of_ok_nested :
    agreedHere.endsOn nestedTree = .ok (.completed ⟨1, 1, 1⟩) ∧
      ∃ files, ∃ k ≤ agreedHere.collectedSize files nestedTree / 13,
        ∀ n, k ≤ n → agreedHere.endsOn (agreedHere.swept^[n] nestedTree) = .ok .nothingFound ∧
          agreedHere.swept^[n] nestedTree = agreedHere.swept^[k] nestedTree := by
  have hends : agreedHere.endsOn nestedTree = .ok (.completed ⟨1, 1, 1⟩) := by decide +kernel
  obtain ⟨files, -, -, k, hk, -, hsettled⟩ :=
    converges_of_ok agreedHere.options agreedHere.palette rfl nestedTree hends
  exact ⟨hends, files, k, hk, hsettled⟩

end Setup

end ConsoleSweep
