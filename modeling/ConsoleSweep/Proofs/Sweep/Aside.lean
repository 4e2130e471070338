import ConsoleSweep.Proofs.Sweep.Parts

/-!
# What is reported, asked and logged has no influence

What a run does with files is `Action.Aside` from what has been reported, asked and logged before it
and from what will be replied: none of it is ever looked at. So all that is left to show of a change
in these is that reports and questions do not notice it either; then the run as a whole does not
(`Setup.unaware_run`).
-/

namespace ConsoleSweep

open ConsoleSweep.Action

namespace Action

variable {ε ε' α β : Type} {act : Action ε α} {next : α → Action ε β}

/-- The world with something else reported and asked, with another input, and with earlier records
in the log. -/
def retold (sink : Sink → Sink) (input : Bytes → Bytes) (asked : List Ask → List Ask)
    (earlier : List Log.Record) (w : World) : World :=
  { w with
    sink := sink w.sink
    input := input w.input
    log := earlier ++ w.log
    asked := asked w.asked }

/-- An action that does not notice what has been reported, asked and logged and what will be
replied. -/
def Aside (act : Action ε α) : Prop :=
  ∀ sink input asked earlier, Unaware (retold sink input asked earlier) act

theorem aside_pure (a : α) : Aside (pure a : Action ε α) := fun _ _ _ _ => unaware_pure a

theorem aside_throw (e : ε) : Aside (throw e : Action ε α) := fun _ _ _ _ => unaware_throw e

theorem aside_logAll (records : List Log.Record) : Aside (logAll records : Action ε Unit) := by
  intro sink input asked earlier w
  simp [logAll_eq, mapWorld, retold]

theorem aside_log (level : Log.Level) (source : Log.Source) (text : String) :
    Aside (log level source text : Action ε Unit) := aside_logAll _

theorem aside_outside (change : FileTree → FileTree) : Aside (outside change : Action ε Unit) :=
  fun _ _ _ _ _ => rfl

theorem Aside.bind (h : Aside act) (hnext : ∀ a, Aside (next a)) : Aside (act >>= next) :=
  fun sink input asked earlier =>
    (h sink input asked earlier).bind fun a => hnext a sink input asked earlier

theorem Aside.within (h : Aside act) (context : ε → ε') : Aside (act.within context) :=
  fun sink input asked earlier => (h sink input asked earlier).within context

theorem aside_readText (path : Path) : Aside (readText path) := by
  intro sink input asked earlier w
  cases hread : w.tree.readText path with
  | ok text =>
    rw [readText_of_ok hread, readText_of_ok (w := retold sink input asked earlier w) hread]
    rfl
  | error fault =>
    rw [readText_of_error hread, readText_of_error (w := retold sink input asked earlier w) hread]
    rfl

theorem aside_writeText (path : Path) (text : String) : Aside (writeText path text) := by
  intro sink input asked earlier w
  cases hwrite : w.tree.write path (Utf8.encode text) with
  | ok tree =>
    rw [writeText_of_ok hwrite, writeText_of_ok (w := retold sink input asked earlier w) hwrite]
    rfl
  | error fault =>
    rw [writeText_of_error hwrite,
      writeText_of_error (w := retold sink input asked earlier w) hwrite]
    rfl

end Action

/-! ## Files -/

theorem compositional_aside (ε : Type) : Compositional (@Aside ε) := ⟨aside_pure, Aside.bind⟩

theorem aside_scanFile (others : Interference) (root file : Path) :
    Aside (scanFile others root file) :=
  (compositional_aside _).scanFile aside_log aside_outside aside_readText others root file

theorem aside_removeStatements (others : Interference) (root : Path) (r : ScanResult)
    (dryRun : Bool) : Aside (removeStatements others root r dryRun) :=
  (compositional_aside _).removeStatements aside_log aside_outside aside_readText aside_writeText
    others root r dryRun

namespace Setup

theorem aside_collectFiles (s : Setup) : Aside s.collectFiles := by
  intro sink input asked earlier w
  -- what follows depends on the tree, which is the same on both sides
  have htree : (retold sink input asked earlier w).tree = w.tree := rfl
  rw [collectFiles, bind_of_ok (get_eq w), bind_of_ok (get_eq _), htree]
  refine Aside.bind (aside_logAll _) (fun _ => ?_) sink input asked earlier w
  cases (Collection.run s.options w.tree).stopped with
  | none => exact aside_pure _
  | some fault => exact aside_throw _

theorem aside_scanAll (s : Setup) (files : List Path) : Aside (s.scanAll files) :=
  (compositional_aside _).scanAll aside_log (fun _ => (aside_scanFile _ _ _).within _) files

/-! ## Runs -/

section Unaware

variable {sink : Sink → Sink} {input : Bytes → Bytes} {asked : List Ask → List Ask}
  {earlier : List Log.Record}
  (hreport : ∀ text, Unaware (retold sink input asked earlier) (report text))
include hreport

theorem unaware_carryOut (s : Setup) (scanned : Nat) (results : List ScanResult) :
    Unaware (retold sink input asked earlier) (s.carryOut scanned results) :=
  (compositional_unaware _).carryOut hreport
    (fun _ => (aside_removeStatements _ _ _ _).within _ _ _ _ _)
    (fun _ _ _ => aside_log _ _ _ _ _ _ _) scanned results

/-- A run does not notice a change in what has been reported, asked and logged that its reports and
its question do not notice. -/
theorem unaware_run (s : Setup)
    (hasks : ∀ summary, Unaware (retold sink input asked earlier) (s.ask summary)) :
    Unaware (retold sink input asked earlier) s.run :=
  (compositional_unaware _).run (fun _ _ _ => aside_log _ _ _ _ _ _ _)
    (fun _ => (aside_scanFile _ _ _).within _ _ _ _ _) (s.aside_collectFiles _ _ _ _) hreport
    (fun _ => (aside_removeStatements _ _ _ _).within _ _ _ _ _) hasks

end Unaware

end Setup

end ConsoleSweep
