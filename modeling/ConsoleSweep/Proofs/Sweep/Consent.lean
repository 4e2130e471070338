import ConsoleSweep.FileTree.Edit
import ConsoleSweep.Proofs.Sweep.Parts

/-!
# No file is written without consent

A run that may change files asks first. `untouched_without_consent` says for every kind of confirmer
that it is asked at most once, with the question painted from what was found; that no file is
touched before it has answered yes; and so that every other end of a run, early or late, leaves all
files alone.

## Shape of the proof

* Confirmers only talk: `Consent.discreet` goes through their kinds.
* `World.Untouched` is what every part of a run before the removal preserves.
* `consulted` goes through the courses of a run and says how the one question was answered; the rest
  are its consequences.
-/

namespace ConsoleSweep

open ConsoleSweep.Action

namespace Confirmer

/-- A confirmer that keeps away from files, whatever it answers. -/
def Discreet (c : Confirmer) : Prop :=
  ∀ question default, Action.Discreet (c.confirm question default)

theorem discreet_fixed (answer : Bool) : (fixed answer).Discreet := fun _ _ => discreet_pure answer

/-- Fails on every question. -/
def failing (failure : Failure) : Confirmer := ⟨fun _ _ => throw failure⟩

theorem discreet_failing (failure : Failure) : (failing failure).Discreet :=
  fun _ _ => discreet_throw failure

theorem discreet_readLine : Action.Discreet readLine := by
  have hget : Action.Discreet (get : Sweep World) := fun _ => ⟨rfl, rfl, rfl⟩
  refine hget.bind fun w => Action.Discreet.bind (fun _ => ⟨rfl, rfl, rfl⟩) fun _ => ?_
  cases Utf8.decode? (cutLine w.input).1 with
  | none => exact discreet_throw _
  | some text => exact discreet_pure _

/-- The prompt only writes to the sink and reads from the input. -/
theorem discreet_prompt : prompt.Discreet :=
  compositional_discreet.prompt discreet_report discreet_readLine

end Confirmer

/-- The ways to confirm a run. -/
inductive Consent where
  /-- The same answer to every question. -/
  | fixed (answer : Bool)
  /-- What the user replies. -/
  | prompt
  /-- A failure on every question. -/
  | failing (failure : Failure)

namespace Consent

/-- The confirmer of a kind. -/
def confirmer : Consent → Confirmer
  | fixed answer => .fixed answer
  | prompt => .prompt
  | failing failure => .failing failure

/-- However a run is confirmed, asking keeps away from files. -/
theorem discreet (c : Consent) : c.confirmer.Discreet := by
  cases c with
  | fixed answer => exact Confirmer.discreet_fixed answer
  | prompt => exact Confirmer.discreet_prompt
  | failing failure => exact Confirmer.discreet_failing failure

end Consent

namespace Setup

/-! ## How a run starts -/

section Start

variable {s : Setup} {w : World} {r : EStateM.Result Failure World Outcome}

theorem Announced.surveyed {files : List Path} {v : World} (h : s.Announced files w v) :
    ∃ u, s.Surveyed files w u := by
  obtain ⟨u, hsurveyed, -⟩ := h.reported
  exact ⟨u, hsurveyed⟩

theorem Announced.untouched {files : List Path} {v : World} (h : s.Announced files w v) :
    w.Untouched v := by
  obtain ⟨u, hsurveyed, hreported⟩ := h.reported
  exact hsurveyed.quiet.toUntouched.trans hreported.untouched

/-- A run cannot collect its files, or it cannot read one of them, or it gets through all of
them. -/
theorem Course.start (h : Course s w r) :
    (∃ fault w', collect s.options w.tree = .error fault ∧
        r = .error (.collecting s.options.root fault) w' ∧ w.Quiet w') ∨
      (∃ files file fault w', collect s.options w.tree = .ok files ∧ file ∈ files ∧
        w.tree.readText (s.options.root.join file) = .error fault ∧
        r = .error (.scanning file (.unreadable (s.options.root.join file) fault)) w' ∧
        w.Quiet w') ∨
      ∃ files v, s.Surveyed files w v := by
  cases h with
  | uncollected hcollect hquiet => exact .inl ⟨_, _, hcollect, rfl, hquiet⟩
  | unscanned hcollect hfile hread hquiet =>
    exact .inr (.inl ⟨_, _, _, _, hcollect, hfile, hread, rfl, hquiet⟩)
  | nothingFound hsurveyed _ _ => exact .inr (.inr ⟨_, _, hsurveyed⟩)
  | unreported hsurveyed _ _ => exact .inr (.inr ⟨_, _, hsurveyed⟩)
  | dry _ hannounced => exact .inr (.inr ⟨_, hannounced.surveyed⟩)
  | unanswered _ hannounced _ => exact .inr (.inr ⟨_, hannounced.surveyed⟩)
  | declined _ hannounced _ => exact .inr (.inr ⟨_, hannounced.surveyed⟩)
  | agreed _ hannounced _ => exact .inr (.inr ⟨_, hannounced.surveyed⟩)

/-- A run whose files cannot be collected fails, and does nothing before it fails. -/
theorem Course.of_uncollected (h : Course s w r) {fault : CollectFault}
    (hcollect : collect s.options w.tree = .error fault) :
    r = .error (.collecting s.options.root fault) (ending r) ∧ w.Quiet (ending r) := by
  rcases h.start with ⟨fault', w', hcollect', rfl, hquiet⟩ |
    ⟨files, file, fault', w', hcollect', -⟩ | ⟨files, v, hsurveyed⟩
  · rw [hcollect] at hcollect'
    cases hcollect'
    exact ⟨rfl, hquiet⟩
  · rw [hcollect] at hcollect'
    cases hcollect'
  · have hcollect' := hsurveyed.collected
    rw [hcollect] at hcollect'
    cases hcollect'

/-- A run that collects a file it cannot read fails at such a file, and does nothing before it
fails. -/
theorem Course.of_unreadable (h : Course s w r) {files : List Path}
    (hcollect : collect s.options w.tree = .ok files)
    (hbad : ∃ file ∈ files, ¬ w.tree.Readable (s.options.root.join file)) :
    ∃ file ∈ files, ∃ fault, w.tree.readText (s.options.root.join file) = .error fault ∧
      r = .error (.scanning file (.unreadable (s.options.root.join file) fault)) (ending r) ∧
      w.Quiet (ending r) := by
  rcases h.start with ⟨fault, w', hcollect', -⟩ |
    ⟨files', file, fault, w', hcollect', hfile, hread, rfl, hquiet⟩ | ⟨files', v, hsurveyed⟩
  · rw [hcollect] at hcollect'
    cases hcollect'
  · rw [hcollect] at hcollect'
    cases hcollect'
    exact ⟨file, hfile, fault, hread, rfl, hquiet⟩
  · have hcollect' := hsurveyed.collected
    rw [hcollect] at hcollect'
    cases hcollect'
    obtain ⟨file, hfile, hunreadable⟩ := hbad
    exact absurd (hsurveyed.readable file hfile) hunreadable

end Start

/-! ## Consent -/

/-- A run that asks: once, unless it is dry, after it has reported what was found, and with the
question painted from that. Until the answer no file is touched, and only an answer of yes leads on
to the removal. -/
structure Consulted (s : Setup) (files : List Path) (w v : World) : Prop where
  real : s.options.dryRun = false
  announced : s.Announced files w v
  asked : (ending (s.run w)).asked =
    w.asked ++ [⟨Report.prompt s.palette (.ofScan files.length (s.found w.tree files)), true⟩]
  answered :
    match s.confirmer.confirm (s.question files.length (s.found w.tree files)) true
      (s.asking files.length (s.found w.tree files) v) with
    | .ok true v' =>
      w.Untouched v' ∧ s.run w = s.carryOut files.length (s.found w.tree files) v'
    | .ok false v' => w.Untouched (ending (s.run w)) ∧ s.run w = s.decline v'
    | .error e v' => w.Untouched (ending (s.run w)) ∧ s.run w = .error e v'

/-- The removal puts no question. -/
theorem asked_carryOut {s : Setup} (hreal : s.options.dryRun = false)
    (scanned : Nat) (results : List ScanResult) (w : World) :
    (ending (s.carryOut scanned results w)).asked = w.asked := by
  have hasked := asked_removeAll hreal results w
  rw [carryOut]
  cases hremoves : s.removeAll results w with
  | ok removed v =>
    rw [hremoves] at hasked
    rw [bind_of_ok hremoves]
    exact (discreet_sumUp s _ v).2.2.trans hasked
  | error e v =>
    rw [hremoves] at hasked
    rw [bind_of_error hremoves]
    exact hasked

/-- Asking puts one question and touches no file, whatever is answered. -/
theorem Announced.asking {s : Setup} {files : List Path} {w v : World}
    (hdiscreet : s.confirmer.Discreet) (h : s.Announced files w v) :
    let reply := ending (s.confirmer.confirm (s.question files.length (s.found w.tree files)) true
      (s.asking files.length (s.found w.tree files) v))
    w.Untouched reply ∧
      reply.asked = w.asked ++ [⟨s.question files.length (s.found w.tree files), true⟩] := by
  obtain ⟨htree, haccesses, hasked⟩ :=
    hdiscreet (s.question files.length (s.found w.tree files)) true
      (s.asking files.length (s.found w.tree files) v)
  refine ⟨h.untouched.trans (World.untouched_of_same htree haccesses), ?_⟩
  rw [hasked, Setup.asking, h.asked]

/-- A run either never asks and touches no file, or it asks once. -/
theorem consulted {s : Setup} (hfind : s.others.duringFind = Interference.none.duringFind)
    (hdiscreet : s.confirmer.Discreet) (w : World) :
    ((ending (s.run w)).asked = w.asked ∧ w.Untouched (ending (s.run w))) ∨
      ∃ files v, s.Consulted files w v := by
  have hcourse := course hfind w
  generalize hr : s.run w = r at hcourse
  cases hcourse with
  -- the courses without a question
  | uncollected _ hquiet => exact .inl ⟨hquiet.asked, hquiet.toUntouched⟩
  | unscanned _ _ _ hquiet => exact .inl ⟨hquiet.asked, hquiet.toUntouched⟩
  | nothingFound hsurveyed _ hreported =>
    refine .inl ⟨?_, hsurveyed.quiet.toUntouched.trans hreported.untouched⟩
    rw [ending, hreported.others]
    exact hsurveyed.quiet.asked
  | unreported hsurveyed hsame _ =>
    rw [ending, hsame]
    exact .inl ⟨hsurveyed.quiet.asked, hsurveyed.quiet.toUntouched.tree, hsurveyed.quiet.accesses⟩
  | dry hdry hannounced =>
    rw [carryOut_dry hdry]
    obtain ⟨-, -, hasked⟩ := discreet_sumUp s _ _
    refine .inl ⟨hasked.trans hannounced.asked, ?_⟩
    exact hannounced.untouched.trans ((discreet_sumUp s _).untouched _)
  -- the three answers
  | unanswered hreal hannounced hconfirm =>
    obtain ⟨huntouched, hasked⟩ := hannounced.asking hdiscreet
    rw [hconfirm] at huntouched hasked
    refine .inr ⟨_, _, hreal, hannounced, by rw [hr]; exact hasked, ?_⟩
    rw [hconfirm, hr]
    exact ⟨huntouched, rfl⟩
  | declined hreal hannounced hconfirm =>
    obtain ⟨huntouched, hasked⟩ := hannounced.asking hdiscreet
    rw [hconfirm] at huntouched hasked
    have hdecline := discreet_decline s
    refine .inr ⟨_, _, hreal, hannounced, by rw [hr]; exact (hdecline _).2.2.trans hasked, ?_⟩
    rw [hconfirm, hr]
    exact ⟨huntouched.trans (hdecline.untouched _), rfl⟩
  | agreed hreal hannounced hconfirm =>
    obtain ⟨huntouched, hasked⟩ := hannounced.asking hdiscreet
    rw [hconfirm] at huntouched hasked
    refine .inr ⟨_, _, hreal, hannounced, ?_, ?_⟩
    · rw [hr, asked_carryOut hreal]
      exact hasked
    · rw [hconfirm, hr]
      exact ⟨huntouched, rfl⟩

/-- Only a run that gets to its removal is completed. -/
theorem exists_summary_of_carryOut {s : Setup} {scanned : Nat} {results : List ScanResult}
    {w w' : World} {outcome : Outcome} (h : s.carryOut scanned results w = .ok outcome w') :
    ∃ summary, outcome = .completed summary := by
  obtain ⟨removed, v, -, hsums⟩ := bind_eq_ok h
  rcases sumUp_cases s ⟨scanned, results.length, removed⟩ v with ⟨_, _, hsums', -⟩ | ⟨_, hsums', -⟩
  · rw [hsums'] at hsums
    cases hsums
    exact ⟨_, rfl⟩
  · rw [hsums'] at hsums
    cases hsums

/-- A run that ends without removing anything touches no file. -/
theorem untouched_of_not_completed {s : Setup}
    (hfind : s.others.duringFind = Interference.none.duringFind)
    (hdiscreet : s.confirmer.Discreet) {w w' : World} {outcome : Outcome}
    (h : s.run w = .ok outcome w') (hend : ∀ summary, outcome ≠ .completed summary) :
    w.Untouched w' := by
  rcases consulted hfind hdiscreet w with ⟨-, huntouched⟩ | ⟨files, v, hconsulted⟩
  · rwa [h] at huntouched
  · have hanswered := hconsulted.answered
    split at hanswered
    · obtain ⟨-, hcarries⟩ := hanswered
      obtain ⟨summary, hsummary⟩ := exists_summary_of_carryOut (hcarries.symm.trans h)
      exact absurd hsummary (hend summary)
    · rw [h] at hanswered
      exact hanswered.1
    · rw [h] at hanswered
      exact hanswered.1

/-- **No file is written without consent.** However a run is confirmed, it asks at most once, and
touches no file unless that one question was answered with yes. So a dry run, a run that finds
nothing or is declined, and a run whose confirmer fails leave all files as they are; and a run that
fails while it collects or scans has not even reported anything. -/
theorem untouched_without_consent (o : Options) (p : Palette) (c : Consent) (w : World) :
    let s : Setup := ⟨o, p, c.confirmer, .none⟩
    let w' := ending (s.run w)
    ((w'.asked = w.asked ∧ w.Untouched w') ∨ ∃ files v, s.Consulted files w v) ∧
      (o.dryRun = true → w'.asked = w.asked ∧ w.Untouched w') ∧
      (s.run w = .ok .nothingFound w' ∨ s.run w = .ok .cancelled w' → w.Untouched w') ∧
      (∀ failure, c = .failing failure → w.Untouched w') ∧
      (∀ fault, collect o w.tree = .error fault →
        s.run w = .error (.collecting o.root fault) w' ∧ w.Quiet w') ∧
      (∀ files, collect o w.tree = .ok files →
        (∃ file ∈ files, ¬ w.tree.Readable (o.root.join file)) →
        ∃ file ∈ files, ∃ fault, w.tree.readText (o.root.join file) = .error fault ∧
          s.run w = .error (.scanning file (.unreadable (o.root.join file) fault)) w' ∧
          w.Quiet w') := by
  intro s w'
  have hconsulted := consulted (s := s) rfl c.discreet w
  have hcourse := course (s := s) rfl w
  refine ⟨hconsulted, fun hdry => ?_, fun hend => ?_, fun failure hfailing => ?_,
    fun fault hcollect => hcourse.of_uncollected hcollect,
    fun files hcollect hbad => hcourse.of_unreadable hcollect hbad⟩
  · rcases hconsulted with huntouched | ⟨files, v, hconsulted⟩
    · exact huntouched
    · have hreal : o.dryRun = false := hconsulted.real
      rw [hdry] at hreal
      cases hreal
  · rcases hend with hend | hend
    · exact untouched_of_not_completed rfl c.discreet hend nofun
    · exact untouched_of_not_completed rfl c.discreet hend nofun
  · rcases hconsulted with huntouched | ⟨files, v, hconsulted⟩
    · exact huntouched.2
    · subst hfailing
      exact hconsulted.answered.1

/-- A run in the current directory that agrees by itself. -/
def agreedHere : Setup := ⟨.ofRoot (.ofString "."), ⟨.standard, false⟩, .fixed true, .none⟩

/-- A directory with a file that holds one statement, and a link to that file. -/
def fileAndLinkTree : FileTree := FileTree.empty.attemptAll
  [.file (.ofString "a.js") (Utf8.encode "console.log(1);"),
    .link (.ofString "b.js") (Utf8.encode "a.js")]

/-- A run in the current directory that is declined. -/
def declinedHere : Setup := { agreedHere with confirmer := .fixed false }

set_option maxRecDepth 10000 in
theorem untouched_without_consent_declined :
    ∃ w', declinedHere.run (.start fileAndLinkTree none []) = .ok .cancelled w' ∧
      (World.start fileAndLinkTree none []).Untouched w' := by
  obtain ⟨w', h⟩ : ∃ w', declinedHere.run (.start fileAndLinkTree none []) = .ok .cancelled w' :=
    ⟨_, eq_ok_of_result? (by decide +kernel)⟩
  have hsetup : Setup.mk declinedHere.options declinedHere.palette (Consent.fixed false).confirmer
    .none = declinedHere := rfl
  have hends := (untouched_without_consent declinedHere.options declinedHere.palette (.fixed false)
    (.start fileAndLinkTree none [])).2.2.1
  rw [hsetup, h] at hends
  exact ⟨w', h, hends (.inr rfl)⟩

end Setup

end ConsoleSweep
