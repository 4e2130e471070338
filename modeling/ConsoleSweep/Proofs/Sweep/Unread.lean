import ConsoleSweep.Proofs.Collection.Shape
import ConsoleSweep.Proofs.FileTree.Alongside
import ConsoleSweep.Proofs.Sweep.Abreast
import ConsoleSweep.Proofs.Sweep.Consent
import ConsoleSweep.Proofs.Sweep.Parts

/-!
# Files outside the selection are never read

Two runs on trees of one shape go abreast if the trees hold the same wherever a collected path
leads. So what a file holds that no collected path leads to, directly or through links, has no
influence on anything a run does, and the run leaves it alone (`unread_outside_selection`).

## Shape of the proof

* What a run does between its visits to files is `Action.Treeless`: it does the same on every tree.
* A run visits files in two places, `scanFile` and `removeStatements`; there the trees are
  `FileTree.Alongside`, and they stay so.
* The files visited are the collected ones, which are the same for both trees.
-/

namespace ConsoleSweep

open ConsoleSweep.Action
open Statement (findAll)

/-! ## Actions that do not look at the tree -/

namespace Action

variable {ε ε' α β : Type} {act : Action ε α} {next : α → Action ε β}

/-- An action that does the same whatever the tree is, and leaves the tree as it is. -/
def Treeless (act : Action ε α) : Prop :=
  ∀ tree, Unaware (fun w => { w with tree }) act

theorem treeless_pure (a : α) : Treeless (pure a : Action ε α) := fun _ => unaware_pure a

theorem treeless_throw (e : ε) : Treeless (throw e : Action ε α) := fun _ => unaware_throw e

theorem treeless_logAll (records : List Log.Record) :
    Treeless (logAll records : Action ε Unit) := fun _ _ => rfl

theorem treeless_log (level : Log.Level) (source : Log.Source) (text : String) :
    Treeless (log level source text : Action ε Unit) := fun _ _ => rfl

theorem Treeless.bind (h : Treeless act) (hnext : ∀ a, Treeless (next a)) :
    Treeless (act >>= next) := fun tree => (h tree).bind fun a => hnext a tree

/-- What does not look at the tree leaves it as it is. -/
theorem Treeless.tree_eq (h : Treeless act) (w : World) : (ending (act w)).tree = w.tree := by
  have hsame : act w = mapWorld (fun w' => { w' with tree := w.tree }) (act w) := h w.tree w
  rw [hsame, ending_mapWorld]

theorem treeless_report (text : String) : Treeless (report text) := by
  refine fun tree => unaware_report ?_ ?_ text
  · exact fun _ => rfl
  · exact fun _ _ => rfl

end Action

/-- However a run is confirmed, asking does not look at the tree. -/
theorem Consent.treeless (c : Consent) (question : String) (default : Bool) :
    Treeless (c.confirmer.confirm question default) := by
  cases c with
  | fixed answer => exact treeless_pure answer
  | failing failure => exact treeless_throw failure
  | prompt =>
    exact fun tree => (compositional_unaware _).prompt (fun text => treeless_report text tree)
      (unaware_readLine (fun _ => rfl) fun _ _ => rfl) question default

namespace Setup

theorem treeless_reportFiles (s : Setup) (results : List ScanResult) :
    Treeless (s.reportFiles results) :=
  fun tree => (compositional_unaware _).reportFiles (fun text => treeless_report text tree) s
    results

end Setup

/-! ## Worlds with trees alongside each other -/

/-- Two worlds that differ in their trees at most, which are alongside each other. -/
structure World.Alongside (t t' : FileTree) (w v : World) : Prop where
  others : v = { w with tree := v.tree }
  trees : FileTree.Alongside t t' w.tree v.tree

variable {t t' : FileTree} {w v : World} {root : Path} {path file : Path} {r : ScanResult}

/-- What does not look at the tree goes abreast. -/
theorem Action.Treeless.abreast {ε α : Type} {act : Action ε α} (h : Treeless act)
    (hwv : w.Alongside t t' v) : Abreast (World.Alongside t t') (act w) (act v) := by
  have hends : World.Alongside t t' (ending (act w)) { ending (act w) with tree := v.tree } := by
    refine ⟨rfl, ?_⟩
    rw [h.tree_eq w]
    exact hwv.trees
  rw [hwv.others]
  exact .of_unaware (h v.tree) hends

/-- A file that two trees share is read with the same result. -/
theorem abreast_readText (hwv : w.Alongside t t' v) (hshares : t.Shares t' path) :
    Abreast (World.Alongside t t') (readText path w) (readText path v) := by
  have hsame := hwv.trees.readText hshares
  have hread : World.Alongside t t' { w with accesses := w.accesses ++ [.read path] }
      { v with accesses := v.accesses ++ [.read path] } := by
    refine ⟨?_, hwv.trees⟩
    rw [hwv.others]
  cases htext : w.tree.readText path with
  | ok text =>
    rw [readText_of_ok htext, readText_of_ok (hsame ▸ htext)]
    exact .ok hread
  | error fault =>
    rw [readText_of_error htext, readText_of_error (hsame ▸ htext)]
    exact .error hread

/-- A file that two trees share is scanned with the same result. -/
theorem abreast_scanFile (hwv : w.Alongside t t' v) (hshares : t.Shares t' (root.join file)) :
    Abreast (World.Alongside t t') (scanFile .none root file w) (scanFile .none root file v) := by
  refine (abreast_readText hwv hshares).bind fun text w' v' _ hwv' => ?_
  have hrest : Treeless (do
      outside (Interference.none.duringFind text)
      let result := ScanResult.ofText file text
      log .debug .scanner ("Scanner found " ++ toString result.count ++ " console statement(s).")
      return result : Action FileFault ScanResult) :=
    Treeless.bind (fun _ _ => rfl) fun _ => (treeless_log _ _ _).bind fun _ => treeless_pure _
  exact hrest.abreast hwv'

/-- A file that two trees share is stripped in both. -/
theorem abreast_removeStatements (hwv : w.Alongside t t' v)
    (hshares : t.Shares t' (root.join r.path)) (dryRun : Bool) :
    Abreast (World.Alongside t t') (removeStatements .none root r dryRun w)
      (removeStatements .none root r dryRun v) := by
  cases dryRun with
  | true => exact .ok hwv
  | false =>
    have hsame := hwv.trees.readText hshares
    cases hread : w.tree.readText (root.join r.path) with
    | error fault =>
      rw [removeStatements_of_unreadable .none hread,
        removeStatements_of_unreadable .none (hsame ▸ hread)]
      refine .error ⟨?_, hwv.trees⟩
      rw [hwv.others]
    | ok text =>
      have hread' : v.tree.readText (root.join r.path) = .ok text := hsame ▸ hread
      obtain ⟨next, hrewrite, hstrip⟩ := FileTree.rewrite_of_readText hread
      obtain ⟨next', hrewrite', hstrip'⟩ := FileTree.rewrite_of_readText hread'
      -- rewriting is stripping, which keeps the trees alongside each other
      obtain ⟨last, hlast, htrees⟩ := hwv.trees.stripFile hshares hstrip
      rw [hstrip'] at hlast
      cases hlast
      rw [removeStatements_of_ok .none hread hrewrite,
        removeStatements_of_ok .none hread' hrewrite']
      refine .ok ⟨?_, htrees⟩
      rw [hwv.others]

namespace Setup

variable {s : Setup} {files : List Path} {results : List ScanResult}

/-! ## The parts of a run -/

/-- Two trees hold the same wherever paths below the root lead. -/
def SharesAll (s : Setup) (t t' : FileTree) (files : List Path) : Prop :=
  ∀ file ∈ files, t.Shares t' (s.options.root.join file)

theorem abreast_collectFiles (hwv : w.Alongside t t' v) :
    Abreast (World.Alongside t t') (s.collectFiles w) (s.collectFiles v) := by
  have hsame := Collection.run_congr hwv.trees.sameShape s.options
  rw [collectFiles, bind_of_ok (get_eq w), bind_of_ok (get_eq v), ← hsame]
  refine Treeless.abreast ((treeless_logAll _).bind fun _ => ?_) hwv
  cases (Collection.run s.options w.tree).stopped with
  | none => exact treeless_pure _
  | some fault => exact treeless_throw _

theorem abreast_scanAll (hothers : s.others = .none) (hshares : s.SharesAll t t' files)
    (hwv : w.Alongside t t' v) :
    Abreast (World.Alongside t t') (s.scanAll files w) (s.scanAll files v) := by
  induction files generalizing w v with
  | nil => exact .ok hwv
  | cons file rest ih =>
    obtain ⟨hfile, hrest⟩ := List.forall_mem_cons.mp hshares
    rw [scanAll, hothers]
    refine ((abreast_scanFile hwv hfile).within _).bind fun result w' v' _ hwv' => ?_
    split
    · refine ((treeless_log _ _ _).abreast hwv').bind fun _ _ _ _ hwv'' => ?_
      exact (ih hrest hwv'').bind fun _ _ _ _ hends => .ok hends
    · exact ih hrest hwv'

theorem abreast_removeAll (hothers : s.others = .none)
    (hshares : s.SharesAll t t' (results.map (·.path))) (hwv : w.Alongside t t' v) :
    Abreast (World.Alongside t t') (s.removeAll results w) (s.removeAll results v) := by
  induction results generalizing w v with
  | nil => exact .ok hwv
  | cons r rest ih =>
    obtain ⟨hfile, hrest⟩ := List.forall_mem_cons.mp hshares
    have hone : Abreast (World.Alongside t t') (s.removeOne r w) (s.removeOne r v) := by
      rw [removeOne, hothers]
      refine ((abreast_removeStatements hwv hfile _).within _).bind fun removed _ _ _ hwv' => ?_
      split
      · exact .ok hwv'
      · exact Treeless.abreast ((treeless_report _).bind fun _ => treeless_pure _) hwv'
    rw [removeAll]
    refine hone.bind fun removed _ _ _ hwv' => ?_
    exact (ih hrest hwv').bind fun _ _ _ _ hends => .ok hends

theorem abreast_settle (c : Consent) (hconfirmer : s.confirmer = c.confirmer)
    (hothers : s.others = .none) (hshares : s.SharesAll t t' (results.map (·.path)))
    (hwv : w.Alongside t t' v) (scanned : Nat) :
    Abreast (World.Alongside t t') (s.settle scanned results w) (s.settle scanned results v) := by
  have hsums : ∀ summary, Treeless (s.sumUp summary) := fun _ =>
    (treeless_report _).bind fun _ => (treeless_log _ _ _).bind fun _ => treeless_pure _
  have hdeclines : Treeless s.decline :=
    (treeless_log _ _ _).bind fun _ => (treeless_report _).bind fun _ => treeless_pure _
  have hends : ∀ (agreed : Bool) {w v : World}, w.Alongside t t' v →
      Abreast (World.Alongside t t') ((if agreed then s.carryOut scanned results else s.decline) w)
        ((if agreed then s.carryOut scanned results else s.decline) v) := by
    intro agreed w v hwv
    split
    · exact (abreast_removeAll hothers hshares hwv).bind fun _ _ _ _ hwv' => (hsums _).abreast hwv'
    · exact hdeclines.abreast hwv
  have hasks : Treeless (s.ask (.ofScan scanned results)) := by
    refine Treeless.bind (fun _ _ => rfl) fun _ => ?_
    rw [hconfirmer]
    exact c.treeless _ _
  unfold settle
  split
  · exact hends true hwv
  · exact (hasks.abreast hwv).bind fun agreed _ _ _ hwv' => hends agreed hwv'

/-- **Two runs go abreast** on trees that share all collected files. -/
theorem abreast_run (c : Consent) (hconfirmer : s.confirmer = c.confirmer)
    (hothers : s.others = .none)
    (hshares : ∀ files, collect s.options t = .ok files → s.SharesAll t t' files)
    (hwv : w.Alongside t t' v) : Abreast (World.Alongside t t') (s.run w) (s.run v) := by
  refine ((treeless_log _ _ _).abreast hwv).bind fun _ w₁ v₁ _ hwv₁ => ?_
  refine (abreast_collectFiles hwv₁).bind fun files w₂ v₂ hcollects hwv₂ => ?_
  -- what has been collected is what is collected from the tree at the start
  have hfiles : s.SharesAll t t' files := by
    rcases collectFiles_cases s w₁ with ⟨_, _, hcollect, hcollects', -⟩ | ⟨_, _, -, hfails, -⟩
    · rw [hcollects] at hcollects'
      cases hcollects'
      rw [← collect_congr hwv₁.trees.shape] at hcollect
      exact hshares _ hcollect
    · rw [hcollects] at hfails
      cases hfails
  refine (abreast_scanAll hothers hfiles hwv₂).bind fun results w₃ v₃ hscans hwv₃ => ?_
  have hresults : s.SharesAll t t' (results.map (·.path)) := by
    rcases scanAll_cases (by rw [hothers]) files w₂ with ⟨_, hscans', -⟩ |
      ⟨_, _, _, _, _, hfails, -⟩
    · rw [hscans] at hscans'
      cases hscans'
      intro path hpath
      obtain ⟨r, hr, rfl⟩ := List.mem_map.mp hpath
      obtain ⟨file, hfile, rfl⟩ := exists_of_mem_found hr
      exact hfiles file hfile
    · rw [hscans] at hfails
      cases hfails
  split
  · have hnothing : Treeless (do
        log .debug .run ("Scanned " ++ toString files.length ++ " file(s), nothing to remove.")
        report (Report.nothingFound s.palette)
        return .nothingFound : Sweep Outcome) :=
      (treeless_log _ _ _).bind fun _ => (treeless_report _).bind fun _ => treeless_pure _
    exact hnothing.abreast hwv₃
  · rw [finishRun_eq, announce, bind_assoc]
    refine ((treeless_reportFiles s results).abreast hwv₃).bind fun _ _ _ _ hwv₄ => ?_
    refine ((treeless_report _).abreast hwv₄).bind fun _ _ _ _ hwv₅ => ?_
    exact abreast_settle c hconfirmer hothers hresults hwv₅ files.length

/-- **Files outside the selection are never read.** Two runs, in worlds that differ in their trees
at most, on trees of one shape that hold the same at every place a collected path leads to, end the
same way, and leave worlds that differ in their trees at most: the same has been reported, asked,
logged, read and written. Where the trees held the same at the start they hold the same in the end,
and everything else is as it was in each of them. -/
theorem unread_outside_selection (o : Options) (p : Palette) (c : Consent) (w v : World)
    (hothers : v = { w with tree := v.tree }) (hshape : w.tree.SameShape v.tree)
    (hshares : ∀ files, collect o w.tree = .ok files → ∀ file ∈ files,
      ∀ loc, w.tree.resolve? (o.root.join file) = .ok loc → w.tree.get? loc = v.tree.get? loc) :
    let s : Setup := ⟨o, p, c.confirmer, .none⟩
    let w' := ending (s.run w)
    let v' := ending (s.run v)
    upshot (s.run w) = upshot (s.run v) ∧ v' = { w' with tree := v'.tree } ∧
      (∀ loc, w.tree.get? loc = v.tree.get? loc → w'.tree.get? loc = v'.tree.get? loc) ∧
      ∀ loc, w.tree.get? loc ≠ v.tree.get? loc →
        w'.tree.get? loc = w.tree.get? loc ∧ v'.tree.get? loc = v.tree.get? loc := by
  intro s w' v'
  have habreast : Abreast (World.Alongside w.tree v.tree) (s.run w) (s.run v) :=
    abreast_run c rfl rfl hshares ⟨hothers, .refl hshape⟩
  have hends := habreast.ending
  exact ⟨habreast.upshot_eq, hends.others, hends.trees.common, hends.trees.apart⟩

/-- A directory that every run leaves out, with two files, and a link to the first of them. The
second file holds any bytes. -/
def outsideTree (data : Bytes) : FileTree := FileTree.empty.attemptAll
  [.file (.ofString "build/b.js") (Utf8.encode "console.log(1);"),
    .file (.ofString "build/c.js") data,
    .link (.ofString "a.js") (Utf8.encode "build/b.js")]

set_option maxRecDepth 10000 in
theorem unread_outside_selection_binary :
    (outsideTree []).SameShape (outsideTree [0xFF]) ∧
      collect agreedHere.options (outsideTree []) = .ok [.ofString "a.js"] ∧
      upshot (agreedHere.run (.start (outsideTree []) none [])) =
        upshot (agreedHere.run (.start (outsideTree [0xFF]) none [])) := by
  have hshape : (outsideTree []).shape = (outsideTree [0xFF]).shape := by decide +kernel
  have hcollect : collect agreedHere.options (outsideTree []) = .ok [.ofString "a.js"] := by
    decide +kernel
  have hlink : (outsideTree []).resolve? (agreedHere.options.root.join (.ofString "a.js")) =
      .ok [Utf8.encode "build", Utf8.encode "b.js"] := by
    decide +kernel
  have hsame : (outsideTree []).get? [Utf8.encode "build", Utf8.encode "b.js"] =
      (outsideTree [0xFF]).get? [Utf8.encode "build", Utf8.encode "b.js"] := by
    decide +kernel
  have hends := (unread_outside_selection agreedHere.options agreedHere.palette (.fixed true)
    (.start (outsideTree []) none []) (.start (outsideTree [0xFF]) none []) rfl hshape ?_).1
  · exact ⟨hshape, hcollect, hends⟩
  · intro files hfiles file hfile loc hloc
    have heq := hcollect.symm.trans hfiles
    cases heq
    cases List.mem_singleton.mp hfile
    cases hlink.symm.trans hloc
    exact hsame

end Setup

end ConsoleSweep
