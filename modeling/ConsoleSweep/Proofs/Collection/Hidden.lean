import ConsoleSweep.FileTree.Edit
import ConsoleSweep.Proofs.Collection.Members
import ConsoleSweep.Proofs.Selection.Verdict

/-!
# Directories whose name starts with a dot

Hidden directories are left out, but the selection is asked first. A directory that the line of the
file pattern itself selects is entered whether it is hidden or not, so a pattern such as `**/*`
collects files below `.git`. `exposed_of_collect` says that there is no other way into a directory
whose name starts with a dot.
-/

namespace ConsoleSweep.Collection

/-- Why a directory is entered although its name starts with a dot, given how the selection sees its
path. -/
structure Exposed (own : Option Line) (exclusions : List Line) (path : Bytes) : Prop where
  /-- The line of the file pattern selects it. -/
  selected : ∃ line, own = some line ∧ line.selects = true ∧ line.applies path true = true
  /-- No exclusion applies to it. -/
  kept : ∀ other ∈ exclusions, other.applies path true = false

/-- A directory whose name starts with a dot is entered just if it is exposed. -/
theorem admits_dotted_iff {s : Selection} {pattern : String} {own : Option Line}
    {exclusions : List Line} (h : s.Layout pattern own exclusions) {root : Path} {dir : List Name}
    (hdotted : (dir.getLastD []).head? = some dot) : admits s root dir true = true ↔
      Exposed own exclusions (candidate root (root.join (.ofNames dir))) := by
  rw [admits_iff, h.verdict_eq_selected_iff, isHidden_eq_false_iff]
  constructor
  · rintro (⟨line, hown, hselects, happlies, hkept⟩ | ⟨-, hvisible⟩)
    · exact ⟨⟨line, hown, hselects, happlies⟩, hkept⟩
    · exact absurd hdotted hvisible
  · rintro ⟨⟨line, hown, hselects, happlies⟩, hkept⟩
    exact .inl ⟨line, hown, hselects, happlies, hkept⟩

/-- **Directories whose name starts with a dot are only entered if the file pattern selects them**,
and then they are unless an exclusion applies to them. -/
theorem exposed_of_collect {o : Options} {tree : FileTree} {files : List Path}
    (h : collect o tree = .ok files) :
    ∃ loc s own exclusions, tree.resolve? o.root = .ok loc ∧ Selection.ofOptions o = .ok s ∧
      s.Layout o.pattern own exclusions ∧
      (∀ dir : List Name, (dir.getLastD []).head? = some dot → (admits s o.root dir true = true ↔
        Exposed own exclusions (candidate o.root (o.root.join (.ofNames dir))))) ∧
      ∀ file ∈ files, ∃ rel node, (rel, node) ∈ tree.below loc ∧ file = .ofNames rel ∧
        ∀ dir ∈ ancestors rel, (dir, .dir) ∈ tree.below loc ∧
          ((dir.getLastD []).head? = some dot →
            Exposed own exclusions (candidate o.root (o.root.join (.ofNames dir)))) := by
  obtain ⟨loc, s, hloc, hs, hmembers⟩ := exists_member_of_collect h
  obtain ⟨own, exclusions, hlayout⟩ := Selection.exists_layout hs
  refine ⟨loc, s, own, exclusions, hloc, hs, hlayout, fun dir => admits_dotted_iff hlayout,
    fun file hfile => ?_⟩
  obtain ⟨rel, node, hmember, rfl⟩ := hmembers file hfile
  refine ⟨rel, node, hmember.there, rfl, fun dir hdir => ?_⟩
  obtain ⟨hthere, hadmits⟩ := hmember.enters hdir
  exact ⟨hthere, fun hdotted => (admits_dotted_iff hlayout hdotted).mp hadmits⟩

/-- A tree with a file below a hidden directory. -/
def gitTree : FileTree := FileTree.empty.attemptAll
  [.file (.ofString ".git/a.js") [], .file (.ofString "a.js") []]

/-- The options of a run in the current directory that takes every file. -/
def everyFile : Options := (Options.ofRoot (.ofString ".")).withPattern "**/*"

theorem collect_everyFile : collect everyFile gitTree =
    .ok [.ofString ".git/a.js", .ofString "a.js"] := by
  decide +kernel

/-- The line of the pattern has exposed the hidden directory. -/
theorem exposed_of_collect_git : ∃ s own exclusions,
    Selection.Layout s everyFile.pattern own exclusions ∧
    Exposed own exclusions (Utf8.encode ".git") := by
  obtain ⟨loc, s, own, exclusions, hloc, -, hlayout, -, hfiles⟩ :=
    exposed_of_collect collect_everyFile
  obtain ⟨rel, node, hthere, hfile, hdirs⟩ := hfiles _ List.mem_cons_self
  have hroot : gitTree.resolve? everyFile.root = .ok [] := by decide +kernel
  rw [hroot] at hloc
  cases hloc
  have hbelow : gitTree.below [] = [([Utf8.encode ".git"], .dir),
      ([Utf8.encode ".git", Utf8.encode "a.js"], .file []), ([Utf8.encode "a.js"], .file [])] := by
    decide +kernel
  rw [hbelow] at hthere
  have hrel : rel = [Utf8.encode ".git", Utf8.encode "a.js"] := by
    simp only [List.mem_cons, Prod.mk.injEq, List.not_mem_nil, or_false] at hthere
    rcases hthere with ⟨rfl, -⟩ | ⟨hrel, -⟩ | ⟨rfl, -⟩
    · exact absurd hfile (by decide +kernel)
    · exact hrel
    · exact absurd hfile (by decide +kernel)
  rw [hrel] at hdirs
  have hexposed := (hdirs [Utf8.encode ".git"] (by decide +kernel)).2 (by decide +kernel)
  have hseen : candidate everyFile.root (everyFile.root.join (.ofNames [Utf8.encode ".git"])) =
      Utf8.encode ".git" := by
    decide +kernel
  rw [hseen] at hexposed
  exact ⟨s, own, exclusions, hlayout, hexposed⟩

/-- A hidden directory is entered. -/
theorem hidden_directory_entered :
    ¬ ∀ (o : Options) (tree : FileTree) (files : List Path), collect o tree = .ok files →
      ∀ file ∈ files, ∀ name ∈ file.components.dropLast, name.head? ≠ some dot := by
  intro h
  have hname : Utf8.encode ".git" ∈ (Path.ofString ".git/a.js").components.dropLast := by
    decide +kernel
  exact h everyFile gitTree _ collect_everyFile _ List.mem_cons_self _ hname (by decide +kernel)

end ConsoleSweep.Collection
