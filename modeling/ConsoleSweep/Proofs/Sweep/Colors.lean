import Mathlib.Data.List.Forall2
import ConsoleSweep.Proofs.Sweep.Aside
import ConsoleSweep.Proofs.Sweep.Consent
import ConsoleSweep.Proofs.Theme.Uncolored

/-!
# Colours show in the report only

Two runs that differ in their palettes go abreast: they collect, scan, ask and remove alike, and
what they report and ask is related as the parts of the report are (`abreast_run_withPalette`).
Without colours these are equal, so themes make no difference; with colours on one side, deleting
the codes from that side gives the other (`colors_only_codes`).

## Shape of the proof

* What a run does besides reporting and asking is `Action.Aside`, and so `Action.Mute`.
* The relation between what two runs have shown is a parameter, `Composes`; all that is needed of it
  is that it goes part by part.
* `Report.Alike` says that it holds of every part of the report.
-/

namespace ConsoleSweep

open ConsoleSweep.Action Terminal
open Statement (findAll)

namespace Action

/-! ## Actions that do not notice what is shown -/

variable {ε α : Type} {act : Action ε α}

/-- An action that does the same whatever has been reported and asked, and adds nothing to it. -/
def Mute (act : Action ε α) : Prop :=
  ∀ sink asked, Unaware (fun w => { w with sink, asked }) act

theorem Aside.mute (h : Aside act) : Mute act :=
  fun sink asked => h (fun _ => sink) id (fun _ => asked) []

theorem mute_readLine : Mute readLine :=
  fun _ _ => unaware_readLine (fun _ => rfl) fun _ _ => rfl

theorem Mute.sink_eq (h : Mute act) (w : World) : (ending (act w)).sink = w.sink := by
  have hsame : act w = mapWorld (fun w' => { w' with sink := w.sink, asked := w.asked }) (act w) :=
    h w.sink w.asked w
  rw [hsame, ending_mapWorld]

theorem Mute.asked_eq (h : Mute act) (w : World) : (ending (act w)).asked = w.asked := by
  have hsame : act w = mapWorld (fun w' => { w' with sink := w.sink, asked := w.asked }) (act w) :=
    h w.sink w.asked w
  rw [hsame, ending_mapWorld]

end Action

/-! ## Worlds in which the same was shown differently -/

/-- A relation between bytes that goes part by part and keeps plain texts as they are. -/
structure Composes (rel : Bytes → Bytes → Prop) : Prop where
  append : ∀ {a a' b b' : Bytes}, rel a a' → rel b b' → rel (a ++ b) (a' ++ b')
  plain : ∀ {text : String}, Plain text → rel (Utf8.encode text) (Utf8.encode text)

theorem composes_eq : Composes Eq where
  append := by
    rintro a _ b _ rfl rfl
    rfl
  plain _ := rfl

theorem composes_decolors : Composes Decolors where
  append := Decolors.append
  plain := Shows.of_plain

/-- Two questions with the same default, shown with related bytes. -/
def Ask.Recolored (rel : Bytes → Bytes → Prop) (ask ask' : Ask) : Prop :=
  rel (Utf8.encode ask.question) (Utf8.encode ask'.question) ∧ ask.default = ask'.default

/-- Two worlds with room for everything that differ at most in what has been reported and asked,
which is related. -/
structure World.Recolored (rel : Bytes → Bytes → Prop) (w v : World) : Prop where
  others : v = { w with sink := v.sink, asked := v.asked }
  room : w.sink.room = none
  room' : v.sink.room = none
  written : rel w.sink.written v.sink.written
  asked : List.Forall₂ (Ask.Recolored rel) w.asked v.asked

variable {rel : Bytes → Bytes → Prop} {w v : World}

theorem Ask.Recolored.eq {ask ask' : Ask} (h : ask.Recolored Eq ask') : ask = ask' := by
  obtain ⟨question, default⟩ := ask
  obtain ⟨question', default'⟩ := ask'
  obtain ⟨hquestion, hdefault⟩ := h
  cases Utf8.encode_injective hquestion
  cases hdefault
  rfl

/-- If the same bytes have been shown, the worlds are the same. -/
theorem World.Recolored.eq (h : w.Recolored Eq v) : w = v := by
  have hsink : v.sink = w.sink := by
    have hwritten := h.written
    have hroom := h.room.trans h.room'.symm
    generalize w.sink = sink, v.sink = sink' at hwritten hroom
    cases sink
    cases sink'
    cases hwritten
    cases hroom
    rfl
  have hasked : v.asked = w.asked :=
    (List.forall₂_eq_eq_eq ▸ h.asked.imp fun _ _ => Ask.Recolored.eq : w.asked = v.asked).symm
  rw [h.others, hsink, hasked]

/-- Without the codes, the questions are the same. -/
theorem World.Recolored.uncolored_asked (h : w.Recolored Decolors v) :
    w.asked.map (fun ask => (uncolored (Utf8.encode ask.question), ask.default)) =
      v.asked.map fun ask => (Utf8.encode ask.question, ask.default) := by
  have hasked := h.asked
  generalize w.asked = asks, v.asked = asks' at hasked
  induction hasked with
  | nil => rfl
  | cons hfirst _ ih =>
    rw [List.map_cons, List.map_cons, ih, hfirst.1.uncolored_eq, hfirst.2]

/-- What neither reports nor asks goes abreast. -/
theorem Action.Mute.abreast {ε α : Type} {act : Action ε α} (h : Mute act)
    (hwv : w.Recolored rel v) : Abreast (World.Recolored rel) (act w) (act v) := by
  have hends : World.Recolored rel (ending (act w))
      { ending (act w) with sink := v.sink, asked := v.asked } :=
    { others := rfl
      room := by rw [h.sink_eq, hwv.room]
      room' := hwv.room'
      written := by rw [h.sink_eq]; exact hwv.written
      asked := by rw [h.asked_eq]; exact hwv.asked }
  rw [hwv.others]
  exact .of_unaware (h v.sink v.asked) hends

/-- Texts that are related are reported abreast. -/
theorem abreast_report (hrel : Composes rel) {text text' : String}
    (htext : rel (Utf8.encode text) (Utf8.encode text')) (hwv : w.Recolored rel v) :
    Abreast (World.Recolored rel) (report text w) (report text' v) := by
  rw [report_of_room_eq_none hwv.room, report_of_room_eq_none hwv.room']
  refine .ok ⟨?_, rfl, rfl, hrel.append hwv.written htext, hwv.asked⟩
  rw [hwv.others]

/-- However a run is confirmed, questions that are related are answered abreast. -/
theorem abreast_confirm (hrel : Composes rel) (c : Consent) {question question' : String}
    (hquestion : rel (Utf8.encode question) (Utf8.encode question')) (default : Bool)
    (hwv : w.Recolored rel v) :
    Abreast (World.Recolored rel) (c.confirmer.confirm question default w)
      (c.confirmer.confirm question' default v) := by
  cases c with
  | fixed answer => exact .ok hwv
  | failing failure => exact .error hwv
  | prompt =>
    have hprompt : rel (Utf8.encode (Confirmer.promptText question default))
        (Utf8.encode (Confirmer.promptText question' default)) := by
      have hhint : Plain (Confirmer.hint default) := by cases default <;> decide +kernel
      simp only [Confirmer.promptText, Utf8.encode_append]
      exact hrel.append (hrel.append (hrel.append hquestion (hrel.plain (by decide +kernel)))
        (hrel.plain hhint)) (hrel.plain (by decide +kernel))
    refine (abreast_report hrel hprompt hwv).bind fun _ w' v' _ hwv' => ?_
    refine (mute_readLine.abreast hwv').bind fun reply w'' v'' _ hwv'' => ?_
    split
    · exact (abreast_report hrel (hrel.plain (by decide +kernel)) hwv'').bind
        fun _ _ _ _ hends => .ok hends
    · exact .ok hwv''

namespace Setup

/-- The setup with another palette. -/
def withPalette (s : Setup) (p : Palette) : Setup := { s with palette := p }

variable {s : Setup} {p : Palette} {files : List Path} {results : List ScanResult}

/-! ## The parts of a run -/

theorem abreast_reportFiles (hrel : Composes rel)
    (hfile : ∀ r ∈ results, ∀ dryRun, rel (Utf8.encode (Report.file s.palette r dryRun))
      (Utf8.encode (Report.file p r dryRun))) (hwv : w.Recolored rel v) :
    Abreast (World.Recolored rel) (s.reportFiles results w)
      ((s.withPalette p).reportFiles results v) := by
  induction results generalizing w v with
  | nil => exact .ok hwv
  | cons r rest ih =>
    obtain ⟨hfirst, hrest⟩ := List.forall_mem_cons.mp hfile
    rw [reportFiles_cons, reportFiles_cons]
    exact (abreast_report hrel (hfirst _) hwv).bind fun _ _ _ _ hwv' => ih hrest hwv'

theorem abreast_removeAll_withPalette (hrel : Composes rel)
    (hremoved : ∀ r ∈ results, ∀ count, rel (Utf8.encode (Report.removed s.palette r.path count))
      (Utf8.encode (Report.removed p r.path count))) (hwv : w.Recolored rel v) :
    Abreast (World.Recolored rel) (s.removeAll results w)
      ((s.withPalette p).removeAll results v) := by
  induction results generalizing w v with
  | nil => exact .ok hwv
  | cons r rest ih =>
    obtain ⟨hfirst, hrest⟩ := List.forall_mem_cons.mp hremoved
    have hone : Abreast (World.Recolored rel) (s.removeOne r w)
        ((s.withPalette p).removeOne r v) := by
      have hremoves := (aside_removeStatements s.others s.options.root r s.options.dryRun).within
        (Failure.removing r.path)
      refine (hremoves.mute.abreast hwv).bind fun removed _ _ _ hwv' => ?_
      show Abreast _ ((if s.options.dryRun then _ else _ : Sweep Nat) _)
        ((if s.options.dryRun then _ else _ : Sweep Nat) _)
      split
      · exact .ok hwv'
      · exact (abreast_report hrel (hfirst removed) hwv').bind fun _ _ _ _ hends => .ok hends
    rw [removeAll, removeAll]
    refine hone.bind fun removed _ _ _ hwv' => ?_
    exact (ih hrest hwv').bind fun _ _ _ _ hends => .ok hends

theorem abreast_ask (hrel : Composes rel) (c : Consent) (hconfirmer : s.confirmer = c.confirmer)
    {summary : Summary} (hprompt : rel (Utf8.encode (Report.prompt s.palette summary))
      (Utf8.encode (Report.prompt p summary))) (hwv : w.Recolored rel v) :
    Abreast (World.Recolored rel) (s.ask summary w) ((s.withPalette p).ask summary v) := by
  have hasked : World.Recolored rel
      { w with asked := w.asked ++ [⟨Report.prompt s.palette summary, true⟩] }
      { v with asked := v.asked ++ [⟨Report.prompt p summary, true⟩] } :=
    { others := by rw [hwv.others]
      room := hwv.room
      room' := hwv.room'
      written := hwv.written
      asked := List.rel_append hwv.asked (.cons ⟨hprompt, rfl⟩ .nil) }
  have hconfirm := abreast_confirm hrel c hprompt true hasked
  rw [← hconfirmer] at hconfirm
  exact hconfirm

theorem abreast_settle_withPalette (hrel : Composes rel) (c : Consent)
    (hconfirmer : s.confirmer = c.confirmer) (halike : Report.Alike rel s.palette p results)
    (scanned : Nat) (hwv : w.Recolored rel v) :
    Abreast (World.Recolored rel) (s.settle scanned results w)
      ((s.withPalette p).settle scanned results v) := by
  have hcarries : ∀ {w v : World}, w.Recolored rel v → Abreast (World.Recolored rel)
      (s.carryOut scanned results w) ((s.withPalette p).carryOut scanned results v) := by
    intro w v hwv
    refine (abreast_removeAll_withPalette hrel halike.removed hwv).bind fun _ _ _ _ hwv' => ?_
    refine (abreast_report hrel (halike.finalSummary _ _) hwv').bind fun _ _ _ _ hwv'' => ?_
    exact (aside_log _ _ _).bind (fun _ => aside_pure _) |>.mute.abreast hwv''
  have hdeclines : ∀ {w v : World}, w.Recolored rel v →
      Abreast (World.Recolored rel) (s.decline w) ((s.withPalette p).decline v) := by
    intro w v hwv
    refine ((aside_log _ _ _).mute.abreast hwv).bind fun _ _ _ _ hwv' => ?_
    exact (abreast_report hrel halike.cancelled hwv').bind fun _ _ _ _ hends => .ok hends
  cases hdry : s.options.dryRun with
  | true =>
    rw [settle_dry hdry, settle_dry (s := s.withPalette p) hdry]
    exact hcarries hwv
  | false =>
    have hasks := abreast_ask hrel c hconfirmer (halike.prompt (.ofScan scanned results)) hwv
    unfold settle
    rw [show (s.withPalette p).options.dryRun = false from hdry, hdry]
    refine hasks.bind fun agreed _ _ _ hwv' => ?_
    cases agreed with
    | true => exact hcarries hwv'
    | false => exact hdeclines hwv'

/-- **Two runs with different palettes go abreast.** -/
theorem abreast_run_withPalette (hrel : Composes rel) (c : Consent)
    (hconfirmer : s.confirmer = c.confirmer)
    (hfind : s.others.duringFind = Interference.none.duringFind)
    (halike : ∀ files, collect s.options w.tree = .ok files →
      Report.Alike rel s.palette p (s.found w.tree files))
    (hwv : w.Recolored rel v) :
    Abreast (World.Recolored rel) (s.run w) ((s.withPalette p).run v) := by
  refine ((aside_log _ _ _).mute.abreast hwv).bind fun _ w₁ v₁ hstarts hwv₁ => ?_
  refine ((aside_collectFiles s).mute.abreast hwv₁).bind fun files w₂ v₂ hcollects hwv₂ => ?_
  rw [scanAll_congr (s := s) (t := s.withPalette p) rfl rfl]
  refine ((aside_scanAll s files).mute.abreast hwv₂).bind fun results w₃ v₃ hscans hwv₃ => ?_
  have hresults : Report.Alike rel s.palette p results := by
    have hstart : w₁.tree = w.tree := by
      cases hstarts
      rfl
    rcases collectFiles_cases s w₁ with ⟨_, _, hcollect, hcollects', hquiet⟩ | ⟨_, _, -, hfails, -⟩
    · cases hcollects.symm.trans hcollects'
      rcases scanAll_cases hfind files w₂ with ⟨_, hscans', -⟩ | ⟨_, _, _, _, _, hfails, -⟩
      · cases hscans.symm.trans hscans'
        rw [hquiet.tree, hstart]
        rw [hstart] at hcollect
        exact halike files hcollect
      · cases hscans.symm.trans hfails
    · cases hcollects.symm.trans hfails
  cases hempty : results.isEmpty with
  | true =>
    refine ((aside_log _ _ _).mute.abreast hwv₃).bind fun _ _ _ _ hwv₄ => ?_
    exact (abreast_report hrel hresults.nothingFound hwv₄).bind fun _ _ _ _ hends => .ok hends
  | false =>
    show Abreast _ (s.finishRun files.length results w₃)
      ((s.withPalette p).finishRun files.length results v₃)
    simp only [finishRun_eq, announce, bind_assoc]
    refine (abreast_reportFiles hrel hresults.file hwv₃).bind fun _ _ _ _ hwv₄ => ?_
    refine (abreast_report hrel (hresults.scanSummary _) hwv₄).bind fun _ _ _ _ hwv₅ => ?_
    exact abreast_settle_withPalette hrel c hconfirmer hresults files.length hwv₅

/-! ## Colours -/

theorem recolored_start (hrel : Composes rel) (tree : FileTree) (input : Bytes) :
    World.Recolored rel (.start tree none input) (.start tree none input) where
  others := rfl
  room := rfl
  room' := rfl
  written := by
    have hnone : Plain "" := by decide
    exact hrel.plain hnone
  asked := .nil

/-- Neither the paths nor the statements of files hold an escape character. -/
def PlainFiles (root : Path) (tree : FileTree) (files : List Path) : Prop :=
  ∀ file ∈ files, escape ∉ file.bytes ∧
    ∀ statement ∈ findAll (tree.textOf (root.join file)), Plain statement

theorem alike_found {tree : FileTree} (hplain : PlainFiles s.options.root tree files)
    (theme theme' : Theme) :
    Report.Alike Decolors ⟨theme, true⟩ ⟨theme', false⟩ (s.found tree files) := by
  refine Report.alike_decolors theme theme' (fun r hr => ?_) fun r hr => ?_
  · obtain ⟨file, hfile, rfl⟩ := exists_of_mem_found hr
    exact (hplain file hfile).1
  · obtain ⟨file, hfile, rfl⟩ := exists_of_mem_found hr
    exact (hplain file hfile).2

/-- **Colours change nothing but codes.** Without colours, all themes make for the same run. With
colours, of whatever theme, a run ends as it does without, with the same tree, the same log and the
same accesses, and deleting the colour codes from its report and its questions gives the report and
the questions of the run without colours, provided that no escape character stands in a path that
was collected or in a statement that was found there. -/
theorem colors_only_codes (o : Options) (c : Consent) (tree : FileTree) (input : Bytes) :
    let run (p : Palette) := Setup.run ⟨o, p, c.confirmer, .none⟩ (.start tree none input)
    (∀ theme theme' : Theme, run ⟨theme, false⟩ = run ⟨theme', false⟩) ∧
      ((∀ files, collect o tree = .ok files → PlainFiles o.root tree files) →
        ∀ theme theme' : Theme,
          let on := ending (run ⟨theme, true⟩)
          let off := ending (run ⟨theme', false⟩)
          upshot (run ⟨theme, true⟩) = upshot (run ⟨theme', false⟩) ∧
            off = { on with sink := off.sink, asked := off.asked } ∧
            uncolored on.sink.written = off.sink.written ∧
            on.asked.map (fun ask => (uncolored (Utf8.encode ask.question), ask.default)) =
              off.asked.map fun ask => (Utf8.encode ask.question, ask.default)) := by
  intro run
  refine ⟨fun theme theme' => ?_, fun hplain theme theme' => ?_⟩
  · have habreast : Abreast (World.Recolored Eq) (run ⟨theme, false⟩) (run ⟨theme', false⟩) :=
      abreast_run_withPalette (s := ⟨o, ⟨theme, false⟩, c.confirmer, .none⟩) composes_eq c rfl rfl
        (fun _ _ => Report.alike_eq theme theme' _) (recolored_start composes_eq tree input)
    exact habreast.eq fun _ _ => World.Recolored.eq
  · have halike := fun files hfiles => alike_found (s := ⟨o, ⟨theme, true⟩, c.confirmer, .none⟩)
      (hplain files hfiles) theme theme'
    have habreast : Abreast (World.Recolored Decolors) (run ⟨theme, true⟩) (run ⟨theme', false⟩) :=
      abreast_run_withPalette (s := ⟨o, ⟨theme, true⟩, c.confirmer, .none⟩) composes_decolors c rfl
        rfl halike (recolored_start composes_decolors tree input)
    intro on off
    have hends : World.Recolored Decolors on off := habreast.ending
    exact ⟨habreast.upshot_eq, hends.others, hends.written.uncolored_eq, hends.uncolored_asked⟩

/-- A file with a statement. -/
def shownTree : FileTree := FileTree.empty.attemptAll
  [.file (.ofString "a.js") (Utf8.encode "console.log(1);")]

/-- What a run shows that asks about that file, and is answered yes. -/
def shown (colored : Bool) : Bytes :=
  (ending (Setup.run ⟨agreedHere.options, ⟨.standard, colored⟩, Consent.prompt.confirmer, .none⟩
    (.start shownTree none (Utf8.encode "y\n")))).sink.written

set_option maxRecDepth 10000 in
theorem colors_only_codes_standard :
    shown true ≠ shown false ∧ uncolored (shown true) = shown false := by
  have hcollect : collect agreedHere.options shownTree = .ok [.ofString "a.js"] := by
    decide +kernel
  have hplain : ∀ files, collect agreedHere.options shownTree = .ok files →
      PlainFiles agreedHere.options.root shownTree files := by
    intro files hfiles
    cases hcollect.symm.trans hfiles
    intro file hfile
    cases List.mem_singleton.mp hfile
    decide +kernel
  obtain ⟨-, hcolors⟩ := colors_only_codes agreedHere.options .prompt shownTree
    (Utf8.encode "y\n")
  have huncolored := (hcolors hplain .standard .standard).2.2.1
  refine ⟨by decide +kernel, ?_⟩
  unfold shown
  rw [huncolored]

end Setup

end ConsoleSweep
