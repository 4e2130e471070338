import ConsoleSweep.Proofs.Collection.Order
import ConsoleSweep.Proofs.Sweep.Limit
import ConsoleSweep.Proofs.Sweep.Reread

/-!
# The order in which a report lists files

A run goes through the files it has collected in order, when it scans them, when it reports what it
has found, and when it removes it. So the report lists files in that order, and then again
(`Setup.Reports`), whatever others do to the tree meanwhile, however the run is confirmed and
however it ends; and a sink that is too small holds the first bytes of that report.

On a sink without a limit all that a part of a run does about the report is to add a text to it,
which is `World.Wrote`; the texts of the parts make up that of the run (`wrote_run`).
-/

namespace ConsoleSweep

open ConsoleSweep.Action

/-! ## What is added to a sink without a limit -/

namespace World

/-- From one world to another, a text was added to a sink without a limit. -/
def Wrote (text : String) (w w' : World) : Prop :=
  w'.sink = ⟨w.sink.written ++ Utf8.encode text, none⟩

variable {text text' : String} {w w' w'' : World}

theorem Wrote.room (h : w.Wrote text w') : w'.sink.room = none := by
  rw [h]

theorem Wrote.trans (h : w.Wrote text w') (h' : w'.Wrote text' w'') :
    w.Wrote (text ++ text') w'' := by
  unfold Wrote at h h' ⊢
  rw [h', h, Utf8.encode_append, List.append_assoc]

theorem wrote_of_written (hroom : w'.sink.room = none)
    (hwritten : w'.sink.written = w.sink.written ++ Utf8.encode text) : w.Wrote text w' := by
  unfold Wrote
  rw [← hwritten, ← hroom]

theorem wrote_of_sink (hroom : w.sink.room = none) (h : w'.sink = w.sink) : w.Wrote "" w' :=
  wrote_of_written (by rw [h, hroom]) (by simp [h, Utf8.encode])

theorem Reported.wrote (h : w.Reported text w') (hroom : w.sink.room = none) : w.Wrote text w' :=
  wrote_of_written (h.room.mpr hroom) h.written

end World

/-- The last text that a part of a run reports. -/
theorem wrote_report {α : Type} (text : String) (a : α) {w : World} (hroom : w.sink.room = none) :
    w.Wrote text (ending ((do
      report text
      return a : Sweep α) w)) := by
  rw [bind_of_ok (report_of_room_eq_none hroom _)]
  rfl

/-- What may be written while a question is put. -/
def Confirmer.spoken (question : String) : List String :=
  ["", promptText question true, promptText question true ++ "\n"]

/-- However a run is confirmed, nothing is written but the question, perhaps with a line feed. -/
theorem Consent.wrote (c : Consent) (question : String) {w : World} (hroom : w.sink.room = none) :
    ∃ said ∈ Confirmer.spoken question,
      w.Wrote said (ending (c.confirmer.confirm question true w)) := by
  cases c with
  | fixed answer => exact ⟨"", by simp [Confirmer.spoken], World.wrote_of_sink hroom rfl⟩
  | failing failure => exact ⟨"", by simp [Confirmer.spoken], World.wrote_of_sink hroom rfl⟩
  | prompt =>
    show ∃ said ∈ Confirmer.spoken question, w.Wrote said
      (ending ((report (Confirmer.promptText question true) >>= _) w))
    rw [bind_of_ok (report_of_room_eq_none hroom _)]
    generalize hv : ({ w with sink := _ } : World) = v
    have hasked : w.Wrote (Confirmer.promptText question true) v := by
      rw [← hv]
      rfl
    cases hline : Utf8.decode? (cutLine v.input).1 with
    | none =>
      rw [bind_of_error (readLine_of_none hline)]
      exact ⟨_, by simp [Confirmer.spoken], hasked⟩
    | some reply =>
      rw [bind_of_ok (readLine_of_some hline)]
      split
      · rw [bind_of_ok (report_of_room_eq_none (w := { v with input := (cutLine v.input).2 })
          hasked.room _)]
        exact ⟨_, by simp [Confirmer.spoken], hasked.trans rfl⟩
      · exact ⟨_, by simp [Confirmer.spoken], hasked⟩

namespace Setup

/-! ## The report -/

/-- The lines about what was removed from files, for the first of them. -/
def removalLines (s : Setup) (results : List ScanResult) (counts : List ℕ) : String :=
  String.join (List.zipWith (fun r n => Report.removed s.palette r.path n) results counts)

/-- How the report of a run ends: it breaks off, or the user has declined, or there are totals. -/
def Closes (s : Setup) (last : String) : Prop :=
  last = "" ∨ last = Report.cancelled s.palette ∨
    ∃ summary, last = Report.finalSummary s.palette summary s.options.dryRun

/-- The report of a run that has collected some files and has read them with some result. What it
says about files it says in their order: what was found in those that hold statements, and later
what was removed from the first of these. -/
inductive Reports (s : Setup) (files : List Path) (scan : Except Fault (List String × FileTree)) :
    String → Prop where
  /-- One of the files cannot be read. -/
  | unscanned {fault : Fault} (hscan : scan = .error fault) : Reports s files scan ""
  /-- None of the texts that were read holds a statement. -/
  | nothingFound {texts : List String} {tree : FileTree} (hscan : scan = .ok (texts, tree))
      (hnone : withStatements files texts = []) :
      Reports s files scan (Report.nothingFound s.palette)
  /-- There are statements in some of the texts that were read. -/
  | found {texts : List String} {tree : FileTree} {found : List ScanResult} {counts : List ℕ}
      {said last : String} (hscan : scan = .ok (texts, tree))
      (hfound : found = withStatements files texts) (hsome : found ≠ [])
      (hfiles : (found.map (·.path)).Sublist files)
      (hsaid : said ∈ Confirmer.spoken (s.question files.length found)) (hlast : s.Closes last) :
      Reports s files scan
        (s.announcement files.length found ++ said ++ s.removalLines found counts ++ last)

variable {s : Setup} {files : List Path} {results : List ScanResult} {scanned : ℕ} {w w' : World}

/-- What was found is listed in the order of the files. -/
theorem paths_withStatements (files : List Path) (texts : List String) :
    ((withStatements files texts).map (·.path)).Sublist files := by
  have hpaths : (List.zipWith ScanResult.ofText files texts).map (·.path) <+: files := by
    induction files generalizing texts with
    | nil => exact List.prefix_refl []
    | cons file rest ih =>
      cases texts with
      | nil => exact List.nil_prefix
      | cons text texts => exact List.cons_prefix_cons.mpr ⟨rfl, ih texts⟩
  exact (List.filter_sublist.map _).trans hpaths.sublist

/-! ## What follows the scan -/

/-- The removal reports the first files, in order. -/
theorem wrote_removeAll (hreal : s.options.dryRun = false) (results : List ScanResult)
    (hroom : w.sink.room = none) :
    ∃ counts, w.Wrote (s.removalLines results counts) (ending (s.removeAll results w)) := by
  rcases handleAll_cases hreal results w with
    ⟨texts, v, hremoves, hall⟩ | ⟨i, r, texts, u, e, v, -, hall, -, hblocked, hfails⟩
  · refine ⟨texts.map fun text => (Statement.findAll text).length, ?_⟩
    rw [hremoves, removalLines, List.zipWith_map_right]
    exact World.wrote_of_written (hall.room.mpr hroom) hall.written
  · have hlength : texts.length ≤ i := hall.length_eq ▸ List.length_take_le i results
    refine ⟨texts.map fun text => (Statement.findAll text).length, ?_⟩
    have hbefore : w.Wrote (s.removalLines results
        (texts.map fun text => (Statement.findAll text).length)) u := by
      refine World.wrote_of_written (hall.room.mpr hroom) ?_
      rw [hall.written, removalLines, List.zipWith_map_right, zipWith_take_left _ hlength]
    -- nothing is written about a file that stops the removal, as the sink has no limit
    have hsink : v.sink = u.sink := by
      cases hblocked with
      | unreadable => rfl
      | unwritable => rfl
      | unreported _ _ _ _ hsink hcut => exact absurd (hsink ▸ hbefore.room) hcut.room
    rw [hfails]
    exact hsink.trans hbefore

theorem wrote_sumUp (s : Setup) (summary : Summary) (hroom : w.sink.room = none) :
    w.Wrote (Report.finalSummary s.palette summary s.options.dryRun)
      (ending (s.sumUp summary w)) := by
  rcases sumUp_cases s summary w with ⟨v, u, hsums, hreported, hquiet⟩ | ⟨u, -, -, hlimited⟩
  · rw [hsums]
    exact hquiet.sink.trans (hreported.wrote hroom)
  · exact absurd hroom hlimited

theorem wrote_decline (s : Setup) (hroom : w.sink.room = none) :
    w.Wrote (Report.cancelled s.palette) (ending (s.decline w)) := by
  rw [decline, bind_of_ok (log_eq ..)]
  exact wrote_report _ _ (w := { w with log := _ }) hroom

/-- The removal and its totals report the first files, in order, and then no more of them. -/
theorem wrote_carryOut (s : Setup) (scanned : ℕ) (results : List ScanResult)
    (hroom : w.sink.room = none) : ∃ counts last, s.Closes last ∧
      w.Wrote (s.removalLines results counts ++ last)
        (ending (s.carryOut scanned results w)) := by
  cases hdry : s.options.dryRun with
  | true =>
    rw [carryOut_dry hdry]
    have hnone : s.removalLines results [] = "" := by
      rw [removalLines, List.zipWith_nil_right, String.join_nil]
    refine ⟨[], Report.finalSummary s.palette ⟨scanned, results.length,
      (results.map (·.count)).sum⟩ s.options.dryRun, .inr (.inr ⟨_, rfl⟩), ?_⟩
    rw [hnone, String.empty_append]
    exact wrote_sumUp s _ hroom
  | false =>
    obtain ⟨counts, hremoval⟩ := wrote_removeAll hdry results hroom
    refine ⟨counts, ?_⟩
    rw [carryOut]
    cases hremoves : s.removeAll results w with
    | ok removed v =>
      rw [hremoves] at hremoval
      rw [bind_of_ok hremoves]
      exact ⟨_, .inr (.inr ⟨_, rfl⟩), hremoval.trans (wrote_sumUp s _ hremoval.room)⟩
    | error e v =>
      rw [hremoves] at hremoval
      rw [bind_of_error hremoves]
      refine ⟨"", .inl rfl, ?_⟩
      rw [String.append_empty]
      exact hremoval

/-- What follows the report of what was found. -/
theorem wrote_settle {c : Consent} (hconfirmer : s.confirmer = c.confirmer) (scanned : ℕ)
    (results : List ScanResult) (hroom : w.sink.room = none) :
    ∃ said ∈ Confirmer.spoken (s.question scanned results), ∃ counts last, s.Closes last ∧
      w.Wrote (said ++ s.removalLines results counts ++ last)
        (ending (s.settle scanned results w)) := by
  cases hdry : s.options.dryRun with
  | true =>
    rw [settle_dry hdry]
    obtain ⟨counts, last, hlast, hremoval⟩ := wrote_carryOut s scanned results hroom
    refine ⟨"", by simp [Confirmer.spoken], counts, last, hlast, ?_⟩
    rw [String.empty_append]
    exact hremoval
  | false =>
    rw [settle_real hdry, hconfirmer]
    obtain ⟨said, hsaid, hasked⟩ :=
      c.wrote (s.question scanned results) (w := s.asking scanned results w) hroom
    refine ⟨said, hsaid, ?_⟩
    -- whatever the answer is, the files come after the question
    cases hconfirm : c.confirmer.confirm (s.question scanned results) true
      (s.asking scanned results w) with
    | error e v =>
      rw [hconfirm] at hasked
      rw [bind_of_error hconfirm]
      refine ⟨[], "", .inl rfl, ?_⟩
      rw [removalLines, List.zipWith_nil_right, String.join_nil, String.append_empty,
        String.append_empty]
      exact hasked
    | ok agreed v =>
      rw [hconfirm] at hasked
      rw [bind_of_ok hconfirm]
      cases agreed with
      | true =>
        obtain ⟨counts, last, hlast, hremoval⟩ := wrote_carryOut s scanned results hasked.room
        refine ⟨counts, last, hlast, ?_⟩
        rw [String.append_assoc]
        exact World.Wrote.trans hasked hremoval
      | false =>
        refine ⟨[], Report.cancelled s.palette, .inr (.inl rfl), ?_⟩
        rw [removalLines, List.zipWith_nil_right, String.join_nil, String.append_empty]
        exact World.Wrote.trans hasked (wrote_decline s hasked.room)

/-! ## The run -/

/-- **A run on a sink without a limit lists the files it has collected in order.** -/
theorem wrote_run {c : Consent} (hconfirmer : s.confirmer = c.confirmer)
    (hcollect : collect s.options w.tree = .ok files) (hroom : w.sink.room = none) :
    ∃ report, s.Reports files (w.tree.readings (fun _ => s.others.duringFind)
      (files.map s.options.root.join)) report ∧ w.Wrote report (ending (s.run w)) := by
  have hrun : s.run = s.runAmid (fun _ => s.others.duringFind) :=
    (runAmid_const s s.others.duringFind).symm
  rw [hrun]
  rcases runAmid_cases s (fun _ => s.others.duringFind) w with
    ⟨files', texts, tree, v, hcollect', hscan, hquiet, hruns⟩ | ⟨_, _, v, hfails, hquiet, hbad⟩
  · cases hcollect.symm.trans hcollect'
    have hsilent : w.Wrote "" v := World.wrote_of_sink hroom hquiet.sink
    rw [hruns]
    by_cases hnone : withStatements files texts = []
    · rw [conclude, if_pos (by rw [hnone]; rfl), bind_of_ok (log_eq ..)]
      have hreports := wrote_report (Report.nothingFound s.palette) Outcome.nothingFound
        (w := { v with log := v.log ++ [⟨.debug, .run, "Scanned " ++ toString files.length ++
          " file(s), nothing to remove."⟩] }) hsilent.room
      refine ⟨_, .nothingFound hscan hnone, ?_⟩
      rw [← String.empty_append (s := Report.nothingFound s.palette)]
      exact hsilent.trans hreports
    · rw [conclude, if_neg (by simpa using hnone)]
      have hpaths := paths_withStatements files texts
      generalize hresults : withStatements files texts = results at hnone hpaths ⊢
      rcases finishRun_cases s files.length results v with
        ⟨v', hreported, hnext⟩ | ⟨_, -, -, hlimited⟩
      · have hfound := hreported.wrote hsilent.room
        obtain ⟨said, hsaid, counts, last, hlast, hrest⟩ :=
          wrote_settle hconfirmer files.length results hfound.room
        have hreports : s.Reports files (w.tree.readings _ _)
            (s.announcement files.length results ++ said ++ s.removalLines results counts ++
              last) :=
          .found hscan hresults.symm hnone hpaths hsaid hlast
        refine ⟨_, hreports, ?_⟩
        rw [hnext]
        have hall := (hsilent.trans hfound).trans hrest
        rw [String.empty_append, ← String.append_assoc, ← String.append_assoc] at hall
        exact hall
      · exact absurd hsilent.room hlimited
  · obtain ⟨fault, hscan⟩ := hbad files hcollect
    rw [hfails]
    exact ⟨"", .unscanned hscan, World.wrote_of_sink hroom hquiet.sink⟩

/-- On a limited sink there are the first bytes of the report. -/
theorem written_take (hconfirmer : s.confirmer.Cuts) (tree : FileTree) (input : Bytes)
    (limit : ℕ) : (ending (s.run (.start tree (some limit) input))).sink.written =
      (ending (s.run (.start tree none input))).sink.written.take limit := by
  have hcuts : Cuts s.run := cuts_run hconfirmer
  have hlimit : (ending (s.run (.start tree (some limit) input))).sink.capacity = some limit := by
    rw [hcuts.capacity]
    simp [World.start, Sink.ofLimit, Sink.capacity]
  have hnone : (ending (s.run (.start tree none input))).sink.room = none := by
    rw [← Sink.capacity_eq_none_iff, hcuts.capacity]
    rfl
  have hcut : Cut (s.run (.start tree (some limit) input)) (s.run (.start tree none input)) :=
    hcuts.cut (tighter_start tree input (by simp))
  rcases cut_cases hcut hlimit hnone with ⟨hle, hwritten, -⟩ | ⟨-, hwritten, -⟩
  · rw [hwritten, List.take_of_length_le hle]
  · exact hwritten

/-- **Files are listed in order.** The paths that a run collects strictly increase, compared name by
name and names byte by byte, so none is there twice. They come in the order of a walk that sorts
each directory for itself and goes down before it goes on. However the run is confirmed and whatever
others do meanwhile, its report lists files in this order, when it says what was found and again
when it says what was removed; a limited sink holds the first bytes of that report. -/
theorem listed_in_order (o : Options) {tree : FileTree} (h : collect o tree = .ok files) :
    files.Pairwise (fun p q => p.components < q.components) ∧ files.Nodup ∧
      (o.root.components ≠ [Collection.standardInput] → ∃ loc selection,
        tree.resolve? o.root = .ok loc ∧ Selection.ofOptions o = .ok selection ∧
          ∀ depth, (∀ e ∈ tree.below loc, e.1.length ≤ depth) →
            files = (Collection.walk selection tree o.root loc depth []).map .ofNames) ∧
      ∀ (p : Palette) (c : Consent) (others : Interference) (input : Bytes),
        let s : Setup := ⟨o, p, c.confirmer, others⟩
        ∃ report, s.Reports files
            (tree.readings (fun _ => others.duringFind) (files.map o.root.join)) report ∧
          (ending (s.run (.start tree none input))).sink.written = Utf8.encode report ∧
          ∀ limit, (ending (s.run (.start tree (some limit) input))).sink.written =
            (Utf8.encode report).take limit := by
  have hordered := Collection.components_pairwise h
  have hnodup : files.Nodup := by
    refine hordered.imp fun {p q} hlt heq => ?_
    rw [heq] at hlt
    exact Std.lt_irrefl hlt
  refine ⟨hordered, hnodup, Collection.collect_eq_walk h, fun p c others input => ?_⟩
  · intro s
    obtain ⟨report, hreports, hwrote⟩ :=
      wrote_run (s := s) (w := .start tree none input) rfl h rfl
    have hwritten : (ending (s.run (.start tree none input))).sink.written =
        Utf8.encode report := by
      rw [hwrote]
      rfl
    refine ⟨report, hreports, hwritten, fun limit => ?_⟩
    rw [written_take c.cuts, hwritten]

/-- A directory and two files whose names go on after its name, with bytes before and after that of
a separator. -/
def branchedTree : FileTree := FileTree.empty.attemptAll
  [.file (.ofString "a.js") (Utf8.encode "console.log(1);"),
    .file (.ofString "a-b.js") (Utf8.encode "console.log(2);"),
    .file (.ofString "a/z.js") (Utf8.encode "console.log(3);")]

theorem listed_in_order_branched :
    [Path.ofString "a/z.js", .ofString "a-b.js", .ofString "a.js"].Pairwise
        (fun p q => p.components < q.components) ∧
      ∃ report, agreedHere.Reports [.ofString "a/z.js", .ofString "a-b.js", .ofString "a.js"]
          (.ok (["console.log(3);", "console.log(2);", "console.log(1);"], branchedTree)) report ∧
        (ending (agreedHere.run (.start branchedTree none []))).sink.written =
          Utf8.encode report := by
  have hcollect : collect agreedHere.options branchedTree =
      .ok [.ofString "a/z.js", .ofString "a-b.js", .ofString "a.js"] := by
    decide +kernel
  have hfirst : branchedTree.readText (.ofString "./a/z.js") = .ok "console.log(3);" := by
    decide +kernel
  have hsecond : branchedTree.readText (.ofString "./a-b.js") = .ok "console.log(2);" := by
    decide +kernel
  have hthird : branchedTree.readText (.ofString "./a.js") = .ok "console.log(1);" := by
    decide +kernel
  have hscan : branchedTree.readings (fun _ => Interference.none.duringFind)
      [.ofString "./a/z.js", .ofString "./a-b.js", .ofString "./a.js"] =
        .ok (["console.log(3);", "console.log(2);", "console.log(1);"], branchedTree) :=
    FileTree.readings_of_ok hfirst
      (FileTree.readings_of_ok hsecond (FileTree.readings_of_ok hthird rfl))
  obtain ⟨hordered, -, -, hruns⟩ := listed_in_order agreedHere.options hcollect
  obtain ⟨report, hreports, hwritten, -⟩ := hruns agreedHere.palette (.fixed true) .none []
  have hsetup : (⟨agreedHere.options, agreedHere.palette, (Consent.fixed true).confirmer,
    .none⟩ : Setup) = agreedHere := rfl
  have hpaths : [Path.ofString "a/z.js", .ofString "a-b.js", .ofString "a.js"].map
      agreedHere.options.root.join =
        [.ofString "./a/z.js", .ofString "./a-b.js", .ofString "./a.js"] := by
    decide +kernel
  rw [hsetup, hpaths, hscan] at hreports
  rw [hsetup] at hwritten
  exact ⟨hordered, report, hreports, hwritten⟩

end Setup

end ConsoleSweep
