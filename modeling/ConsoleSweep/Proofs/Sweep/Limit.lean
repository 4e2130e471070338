import ConsoleSweep.Proofs.Sweep.Consent
import ConsoleSweep.Proofs.Sweep.Cut
import ConsoleSweep.Proofs.Sweep.Parts

/-!
# Runs on sinks of different sizes

Of two runs that differ only in the room of their sinks, the tighter one does what the other does,
until a part of the report no longer fits; then it is over (`cuts_run`). So it has written the first
bytes of the same report and rewritten the first of the same files. `World.rewritten` lists the
files written so far, and `strips_run` says that a run leaves the tree with just these files
stripped, so that the main statement, `cutOff_of_limit`, also tells the tree at every limit.
-/

namespace ConsoleSweep

open ConsoleSweep.Action

theorem compositional_blind (ε : Type) : Compositional (@Blind ε) := ⟨blind_pure, Blind.bind⟩

theorem compositional_cuts : Compositional @Cuts := ⟨cuts_pure, Cuts.bind⟩

/-! ## Confirmers -/

namespace Confirmer

/-- A confirmer that a tighter sink cuts off at most. -/
def Cuts (c : Confirmer) : Prop := ∀ question default, Action.Cuts (c.confirm question default)

theorem cuts_prompt : prompt.Cuts :=
  compositional_cuts.prompt cuts_report blind_readLine.cuts

end Confirmer

/-- However a run is confirmed, a tighter sink cuts the confirmation off at most. -/
theorem Consent.cuts (c : Consent) : c.confirmer.Cuts := by
  cases c with
  | fixed answer => exact fun _ _ => cuts_pure answer
  | prompt => exact Confirmer.cuts_prompt
  | failing failure => exact fun _ _ => cuts_throw failure

/-! ## Runs -/

theorem blind_scanFile (others : Interference) (root file : Path) :
    Blind (scanFile others root file) :=
  (compositional_blind _).scanFile blind_log blind_outside blind_readText others root file

theorem blind_removeStatements (others : Interference) (root : Path) (r : ScanResult)
    (dryRun : Bool) : Blind (removeStatements others root r dryRun) :=
  (compositional_blind _).removeStatements blind_log blind_outside blind_readText blind_writeText
    others root r dryRun

namespace Setup

variable {s : Setup}

theorem blind_collectFiles (s : Setup) : Blind s.collectFiles where
  sink w sink := by
    rw [collectFiles, bind_of_ok (get_eq w), bind_of_ok (get_eq _), bind_of_ok (logAll_eq ..),
      bind_of_ok (logAll_eq ..)]
    dsimp only
    cases (Collection.run s.options w.tree).stopped <;> rfl
  accesses w := by
    rw [collectFiles, bind_of_ok (get_eq w), bind_of_ok (logAll_eq ..)]
    cases (Collection.run s.options w.tree).stopped <;> exact List.prefix_rfl

theorem cuts_ask (hconfirmer : s.confirmer.Cuts) (summary : Summary) : Cuts (s.ask summary) := by
  have hasked : Blind (modify fun w => { w with
      asked := w.asked ++ [⟨Report.prompt s.palette summary, true⟩] } : Sweep Unit) :=
    ⟨fun _ _ => rfl, fun _ => List.prefix_rfl⟩
  exact hasked.cuts.bind fun _ => hconfirmer _ _

/-- **A tighter sink cuts a run off at most**, whatever somebody else does to the tree. -/
theorem cuts_run (hconfirmer : s.confirmer.Cuts) : Cuts s.run :=
  compositional_cuts.run (fun _ _ _ => (blind_log _ _ _).cuts)
    (fun _ => ((blind_scanFile _ _ _).within _).cuts) s.blind_collectFiles.cuts cuts_report
    (fun _ => ((blind_removeStatements _ _ _ _).within _).cuts) (cuts_ask hconfirmer)

end Setup

/-! ## The files rewritten so far -/

/-- The file that was written, if that succeeded. -/
def Access.rewritten? : Access → Option Path
  | .write path true => some path
  | _ => none

namespace World

/-- The files written so far, oldest first. -/
def rewritten (w : World) : List Path := w.accesses.filterMap Access.rewritten?

/-- From one world to another, just the files that were written have been stripped. -/
def Stripped (w w' : World) : Prop :=
  ∃ paths counts, w'.rewritten = w.rewritten ++ paths ∧
    w.tree.stripFiles paths = .ok (w'.tree, counts)

variable {w w' w'' : World}

theorem Stripped.trans (h : w.Stripped w') (h' : w'.Stripped w'') : w.Stripped w'' := by
  obtain ⟨paths, counts, hpaths, htree⟩ := h
  obtain ⟨paths', counts', hpaths', htree'⟩ := h'
  refine ⟨paths ++ paths', counts ++ counts', ?_, FileTree.stripFiles_append htree htree'⟩
  rw [hpaths', hpaths, List.append_assoc]

/-- Where files were read at most, none was stripped. -/
theorem Untouched.stripped (h : w.Untouched w') : w.Stripped w' := by
  obtain ⟨paths, haccesses⟩ := h.accesses
  refine ⟨[], [], ?_, by rw [h.tree]; rfl⟩
  have hreads : (paths.map Access.read).filterMap Access.rewritten? = [] := by
    simp [List.filterMap_eq_nil_iff, Access.rewritten?]
  rw [rewritten, rewritten, haccesses, List.filterMap_append, hreads]

/-- What has been written before has been written. -/
theorem Before.rewritten (h : w.Before w') : w.rewritten <+: w'.rewritten :=
  h.accesses.filterMap _

end World

namespace Action

/-- An action that strips the files it writes, and changes nothing else. -/
def Strips {ε α : Type} (act : Action ε α) : Prop := ∀ w : World, w.Stripped (ending (act w))

theorem Discreet.strips {ε α : Type} {act : Action ε α} (h : Discreet act) : Strips act :=
  fun w => (h.untouched w).stripped

theorem Strips.bind {ε α β : Type} {act : Action ε α} {next : α → Action ε β} (h : Strips act)
    (hnext : ∀ a, Strips (next a)) : Strips (act >>= next) := by
  intro w
  have hw := h w
  cases hact : act w with
  | ok a v =>
    rw [hact] at hw
    rw [bind_of_ok hact]
    exact hw.trans (hnext a v)
  | error e v =>
    rw [hact] at hw
    rw [bind_of_error hact]
    exact hw

theorem Strips.within {ε ε' α : Type} {act : Action ε α} (h : Strips act) (context : ε → ε') :
    Strips (act.within context) := by
  intro w
  have hw := h w
  cases hact : act w with
  | ok a v => rw [hact] at hw; rw [within_of_ok hact]; exact hw
  | error e v => rw [hact] at hw; rw [within_of_error hact]; exact hw

end Action

open Statement (findAll)

/-- Removing the statements of a file strips it. -/
theorem strips_removeStatements (root : Path) (r : ScanResult) (dryRun : Bool) :
    Strips (removeStatements .none root r dryRun) := by
  intro w
  cases dryRun with
  | true => exact (World.Quiet.refl w).toUntouched.stripped
  | false =>
    cases hread : w.tree.readText (root.join r.path) with
    | error fault =>
      rw [removeStatements_of_unreadable .none hread]
      exact (w.quiet_read _).toUntouched.stripped
    | ok text =>
      obtain ⟨next, hrewrite, hstrip⟩ := FileTree.rewrite_of_readText hread
      rw [removeStatements_of_ok .none hread hrewrite]
      by_cases hnone : findAll text = []
      · -- without statements, nothing is written and nothing changes
        unfold FileTree.rewrite at hrewrite
        rw [if_pos hnone] at hrewrite
        cases hrewrite
        refine World.Untouched.stripped ⟨rfl, [root.join r.path], ?_⟩
        simp [ending, visit, attempts, hnone]
      · have hvisit : (visit (root.join r.path) text true).filterMap Access.rewritten? =
            [root.join r.path] := by
          rw [visit, attempts, if_neg hnone]
          rfl
        refine ⟨[root.join r.path], [(findAll text).length], ?_,
          FileTree.stripFiles_cons_eq_ok_iff.mpr ⟨_, _, [], hstrip, rfl, rfl⟩⟩
        rw [ending, World.rewritten, List.filterMap_append, hvisit, World.rewritten]

namespace Setup

variable {s : Setup}

theorem compositional_strips : Compositional fun _ (act : Sweep _) => Strips act :=
  ⟨fun a => (discreet_pure a).strips, Strips.bind⟩

theorem strips_carryOut (hothers : s.others = .none) (scanned : Nat) (results : List ScanResult) :
    Strips (s.carryOut scanned results) := by
  refine compositional_strips.carryOut (fun _ => (discreet_report _).strips) (fun r => ?_)
    (fun _ _ _ => (discreet_log _ _ _).strips) scanned results
  rw [hothers]
  exact (strips_removeStatements _ r _).within _

/-- **A run strips the files it writes**, and changes nothing else in the tree, however it ends. -/
theorem strips_run (hothers : s.others = .none) (hdiscreet : s.confirmer.Discreet) :
    Strips s.run := by
  intro w
  rcases consulted (by rw [hothers]) hdiscreet w with ⟨-, huntouched⟩ | ⟨files, v, hconsulted⟩
  · exact huntouched.stripped
  · have hanswered := hconsulted.answered
    split at hanswered
    next v' _ =>
      obtain ⟨huntouched, hruns⟩ := hanswered
      rw [hruns]
      exact huntouched.stripped.trans (strips_carryOut hothers _ _ v')
    next => exact hanswered.1.stripped
    next => exact hanswered.1.stripped

/-! ## Cut off -/

/-- What a run on a sink of `limit` bytes comes to, seen beside the same run on a sink without a
limit: its output is cut off there, it fails if that leaves anything out and is the same run if not,
and it has stripped the first of the files that the other run rewrites. -/
structure CutOff (limit : Nat) (tree : FileTree) (cut full : EStateM.Result Failure World Outcome) :
    Prop where
  written : (ending cut).sink.written = (ending full).sink.written.take limit
  fits : (ending full).sink.written.length ≤ limit →
    upshot cut = upshot full ∧ ending cut = { ending full with sink := (ending cut).sink }
  fails : limit < (ending full).sink.written.length → upshot cut = .error .sinkFull
  rewritten : (ending cut).rewritten <+: (ending full).rewritten
  tree : ∃ counts, tree.stripFiles (ending cut).rewritten = .ok ((ending cut).tree, counts)

/-- Of two runs that differ in their sinks at most, the tighter one has done what the other has
done, or less. -/
theorem before_of_cut {r full : EStateM.Result Failure World Outcome} (h : Cut r full) :
    (ending r).Before (ending full) := by
  cases h with
  | ok hwv => exact hwv.before
  | error hwv => exact hwv.before
  | full _ hbefore _ => exact hbefore

/-- A run on a sink of `limit` bytes does the same as without a limit if the output fits, and else
fails once it has written so many bytes. -/
theorem cut_cases {limit : Nat} {r full : EStateM.Result Failure World Outcome} (h : Cut r full)
    (hlimit : (ending r).sink.capacity = some limit) (hnone : (ending full).sink.room = none) :
    ((ending full).sink.written.length ≤ limit ∧
        (ending r).sink.written = (ending full).sink.written ∧ upshot r = upshot full ∧
        ending r = { ending full with sink := (ending r).sink }) ∨
      (limit < (ending full).sink.written.length ∧
        (ending r).sink.written = (ending full).sink.written.take limit ∧
        upshot r = .error .sinkFull) := by
  -- what is kept never exceeds the limit, and fills it up exactly when no room is left
  have hkept : ∃ room, (ending r).sink.room = some room ∧
      (ending r).sink.written.length + room = limit := by
    simpa [Sink.capacity] using hlimit
  obtain ⟨room, hroom, hsum⟩ := hkept
  cases h with
  | @ok a w v hwv =>
    have hle : v.sink.written.length ≤ limit := by
      rw [← hwv.sink.written]
      exact hsum ▸ Nat.le_add_right _ _
    exact .inl ⟨hle, hwv.sink.written, rfl, hwv.others⟩
  | @error e w v hwv =>
    have hle : v.sink.written.length ≤ limit := by
      rw [← hwv.sink.written]
      exact hsum ▸ Nat.le_add_right _ _
    exact .inl ⟨hle, hwv.sink.written, rfl, hwv.others⟩
  | @full w _ hfull hbefore hmore =>
    have hlength : w.sink.written.length = limit := by
      have hzero : some 0 = some room := hfull.symm.trans hroom
      cases hzero
      exact hsum
    refine .inr ⟨hlength ▸ hmore hnone, ?_, rfl⟩
    rw [← hlength]
    exact List.prefix_iff_eq_take.mp hbefore.written

theorem tighter_start (tree : FileTree) (input : Bytes) {limit : Nat} {limit' : Option Nat}
    (hle : ∀ n, limit' = some n → limit ≤ n) :
    (World.start tree (some limit) input).Tighter (World.start tree limit' input) :=
  ⟨rfl, rfl, fun n hn => ⟨limit, rfl, hle n hn⟩⟩

/-- **A sink that is too small only cuts a run off.** With `limit` bytes the output is the first
`limit` bytes of the whole output. If that is all of it the runs are the same, and else the run
fails for lack of room. Either way it has stripped the first few of the files that the whole run
rewrites, and they are no fewer on a sink with more room. -/
theorem cutOff_of_limit (o : Options) (p : Palette) (c : Consent) (tree : FileTree)
    (input : Bytes) :
    let s : Setup := ⟨o, p, c.confirmer, .none⟩
    let full := s.run (.start tree none input)
    let cut (limit : Nat) := s.run (.start tree (some limit) input)
    (∀ limit, CutOff limit tree (cut limit) full) ∧
      ∀ limit limit', limit ≤ limit' →
        (ending (cut limit)).rewritten <+: (ending (cut limit')).rewritten := by
  intro s full cut
  have hcuts : Cuts s.run := cuts_run c.cuts
  constructor
  · intro limit
    have hcut : Cut (cut limit) full := hcuts.cut (tighter_start tree input nofun)
    have hlimit : (ending (cut limit)).sink.capacity = some limit := by
      rw [hcuts.capacity]
      simp [World.start, Sink.ofLimit, Sink.capacity]
    have hnone : (ending full).sink.room = none := by
      rw [← Sink.capacity_eq_none_iff, hcuts.capacity]
      rfl
    have hcases := cut_cases hcut hlimit hnone
    have hstripped := strips_run (s := s) rfl c.discreet (.start tree (some limit) input)
    obtain ⟨paths, counts, hpaths, htree⟩ := hstripped
    exact {
      written := by
        rcases hcases with ⟨hle, hwritten, -⟩ | ⟨-, hwritten, -⟩
        · rw [hwritten, List.take_of_length_le hle]
        · exact hwritten
      fits := fun hle => by
        rcases hcases with ⟨-, -, hsame⟩ | ⟨hlt, -⟩
        · exact hsame
        · omega
      fails := fun hlt => by
        rcases hcases with ⟨hle, -⟩ | ⟨-, -, hfails⟩
        · omega
        · exact hfails
      rewritten := (before_of_cut hcut).rewritten
      tree := by
        have hall : (ending (cut limit)).rewritten = paths := hpaths
        exact ⟨counts, by rw [hall]; exact htree⟩ }
  · intro limit limit' hle
    have htighter : (World.start tree (some limit) input).Tighter
        (World.start tree (some limit') input) := by
      refine tighter_start tree input fun n hn => ?_
      cases hn
      exact hle
    exact (before_of_cut (hcuts.cut htighter)).rewritten

end Setup

end ConsoleSweep
