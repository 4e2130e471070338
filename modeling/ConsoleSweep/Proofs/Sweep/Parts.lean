import ConsoleSweep.Proofs.Sweep.Abreast
import ConsoleSweep.Proofs.Sweep.Course

/-!
# What holds of a run because it holds of its parts

Many properties of actions hold of a sequence if they hold of its parts: that an action does not
notice some change of the world, say, or that it never fails in some way. Such a property is
`Compositional`, and it holds of a run if it holds of its reports and records, of its visits to
files and of its question (`Compositional.run`). What a run is put together from is gone through
here, once for all of these properties.
-/

namespace ConsoleSweep

open ConsoleSweep.Action

/-- A property of actions that holds of a sequence if it holds of its parts. -/
structure Compositional {ε : Type} (P : ∀ ⦃α : Type⦄, Action ε α → Prop) : Prop where
  pure : ∀ {α : Type} (a : α), P (Pure.pure a : Action ε α)
  bind : ∀ {α β : Type} {act : Action ε α} {next : α → Action ε β},
    P act → (∀ a, P (next a)) → P (act >>= next)

theorem compositional_unaware (change : World → World) :
    Compositional fun _ (act : Sweep _) => Unaware change act := ⟨unaware_pure, Unaware.bind⟩

theorem compositional_discreet : Compositional fun _ (act : Sweep _) => Discreet act :=
  ⟨discreet_pure, Discreet.bind⟩

namespace Compositional

/-! ## Visits to files -/

section Visits

variable {P : ∀ ⦃α : Type⦄, Action FileFault α → Prop} (h : Compositional P)
  (hlog : ∀ level source text, P (log level source text))
  (houtside : ∀ change, P (outside change)) (hread : ∀ path, P (readText path))
include h hlog houtside hread

theorem scanFile (others : Interference) (root file : Path) :
    P (ConsoleSweep.scanFile others root file) :=
  h.bind (hread _) fun _ => h.bind (houtside _) fun _ => h.bind (hlog _ _ _) fun _ => h.pure _

theorem removeStatements (hwrite : ∀ path text, P (writeText path text)) (others : Interference)
    (root : Path) (r : ScanResult) (dryRun : Bool) :
    P (ConsoleSweep.removeStatements others root r dryRun) := by
  unfold ConsoleSweep.removeStatements
  split
  · exact h.pure _
  · refine h.bind (hread _) fun text => h.bind (houtside _) fun _ => ?_
    -- what follows the warning about a file that has changed
    have hrewrite : P (do
        if (Statement.strip text).2 = 0 then return 0
        writeText (root.join r.path) (Statement.strip text).1
        log .info .remover ("Removed " ++ toString (Statement.strip text).2 ++
          " statement(s) from " ++ (root.join r.path).display)
        return (Statement.strip text).2 : Action FileFault Nat) := by
      split
      · exact h.pure _
      · exact h.bind (hwrite _ _) fun _ => h.bind (hlog _ _ _) fun _ => h.pure _
    show P (if _ then _ else _)
    split
    · exact h.bind (hlog _ _ _) fun _ => hrewrite
    · exact hrewrite

end Visits

variable {P : ∀ ⦃α : Type⦄, Sweep α → Prop} {s : Setup} (h : Compositional P)
include h

/-! ## Prompts, reports and removals -/

section Settling

variable (hreport : ∀ text, P (report text))
include hreport

theorem prompt (hread : P readLine) (question : String) (default : Bool) :
    P (Confirmer.prompt.confirm question default) := by
  refine h.bind (hreport _) fun _ => h.bind hread fun reply => ?_
  split
  · exact h.bind (hreport _) fun _ => h.pure _
  · exact h.pure _

theorem reportFiles (s : Setup) (results : List ScanResult) : P (s.reportFiles results) := by
  induction results with
  | nil => exact h.pure _
  | cons r rest ih =>
    rw [Setup.reportFiles_cons]
    exact h.bind (hreport _) fun _ => ih

theorem announce (s : Setup) (scanned : Nat) (results : List ScanResult) :
    P (s.announce scanned results) :=
  h.bind (h.reportFiles hreport s results) fun _ => hreport _

section Removal

variable (hremove : ∀ r : ScanResult, P ((ConsoleSweep.removeStatements s.others s.options.root r
  s.options.dryRun).within (.removing r.path)))
include hremove

theorem removeAll (results : List ScanResult) : P (s.removeAll results) := by
  induction results with
  | nil => exact h.pure _
  | cons r rest ih =>
    have hone : P (s.removeOne r) := by
      refine h.bind (hremove r) fun removed => ?_
      split
      · exact h.pure _
      · exact h.bind (hreport _) fun _ => h.pure _
    exact h.bind hone fun _ => h.bind ih fun _ => h.pure _

variable (hlog : ∀ level source text, P (log level source text))
include hlog

theorem carryOut (scanned : Nat) (results : List ScanResult) : P (s.carryOut scanned results) :=
  h.bind (h.removeAll hreport hremove results) fun _ => h.bind (hreport _) fun _ =>
    h.bind (hlog _ _ _) fun _ => h.pure _

theorem settle (hask : ∀ summary, P (s.ask summary)) (scanned : Nat) (results : List ScanResult) :
    P (s.settle scanned results) := by
  have hends : ∀ agreed : Bool, P (if agreed then s.carryOut scanned results else s.decline) := by
    intro agreed
    split
    · exact h.carryOut hreport hremove hlog scanned results
    · exact h.bind (hlog _ _ _) fun _ => h.bind (hreport _) fun _ => h.pure _
  unfold Setup.settle
  split
  · exact hends true
  · exact h.bind (hask _) hends

end Removal

end Settling

/-! ## Runs -/

section Scanning

variable (hlog : ∀ level source text, P (log level source text))
  (hscan : ∀ file, P ((ConsoleSweep.scanFile s.others s.options.root file).within (.scanning file)))
include hlog hscan

theorem scanAll (files : List Path) : P (s.scanAll files) := by
  induction files with
  | nil => exact h.pure _
  | cons file rest ih =>
    refine h.bind (hscan file) fun result => ?_
    split
    · exact h.bind (hlog _ _ _) fun _ => h.bind ih fun _ => h.pure _
    · exact ih

variable (hcollect : P s.collectFiles) (hreport : ∀ text, P (report text))
include hcollect hreport

theorem opening : P s.opening := by
  refine h.bind (hlog _ _ _) fun _ => h.bind hcollect fun files =>
    h.bind (h.scanAll hlog hscan files) fun results => ?_
  split
  · exact h.bind (hlog _ _ _) fun _ => h.bind (hreport _) fun _ => h.pure _
  · exact h.bind (h.announce hreport s _ _) fun _ => h.pure _

/-- **What holds of the parts of a run holds of the run.** -/
theorem run
    (hremove : ∀ r : ScanResult, P ((ConsoleSweep.removeStatements s.others s.options.root r
      s.options.dryRun).within (.removing r.path)))
    (hask : ∀ summary, P (s.ask summary)) : P s.run := by
  rw [Setup.run_eq]
  refine h.bind (h.opening hlog hscan hcollect hreport) fun found => ?_
  show P (if found.2.isEmpty then _ else s.settle found.1 found.2)
  split
  · exact h.pure _
  · exact h.settle hreport hremove hlog hask _ _

end Scanning

end Compositional

end ConsoleSweep
