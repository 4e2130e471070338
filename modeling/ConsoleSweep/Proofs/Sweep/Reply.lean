import ConsoleSweep.Proofs.Sweep.Aside
import ConsoleSweep.Proofs.Sweep.Effect
import ConsoleSweep.Proofs.Text.Trimming

/-!
# Agreeing beforehand and when asked

A run that agrees by itself and one whose user replies with a yes do the same, whatever the yes
looks like (`prompted_as_agreed`). If there is no question they cannot be told apart, and nothing of
the input is used up. If there is one, the report is the same but for the question, which stands
where the run has reported what it found, and the first line of the input is used up.

## Shape of the proof

* `SaysYes` describes a reply that says yes, and `FirstLine` where in the input the reply stands.
  `parseAnswer_eq_true_iff` and `FirstLine.cutLine_eq` say that this is how replies are read.
* The opening of a run does not know who confirms (`opening_withConfirmer`).
* What follows a yes does not notice what has been reported before nor what is left of the input
  (`unaware_report_preceded`). So the question and the line feed after the reply only stand in
  between.
-/

namespace ConsoleSweep

open ConsoleSweep.Action

/-! ## Replies -/

/-- The words that say yes: none, `y` and `yes`, in any letter case. -/
def YesWord (word : List Char) : Prop := word.map Char.toLower ∈ [[], ['y'], ['y', 'e', 's']]

/-- A reply that says yes, with blanks around the word. -/
def SaysYes (reply : String) : Prop :=
  ∃ lead word trail, reply.toList = lead ++ word ++ trail ∧ (∀ c ∈ lead, isBlank c) ∧
    (∀ c ∈ trail, isBlank c) ∧ YesWord word

/-- The first line of an input, with the line feed that ends it if there is one, and what follows
the line. -/
inductive FirstLine : (input : Bytes) → (line : String) → (rest : Bytes) → Prop where
  /-- The line ends with a line feed. -/
  | ended {body : String} {rest : Bytes} (hbody : '\n' ∉ body.toList) :
      FirstLine (Utf8.encode (body ++ "\n") ++ rest) (body ++ "\n") rest
  /-- The line ends with the input. -/
  | last {line : String} (hline : '\n' ∉ line.toList) : FirstLine (Utf8.encode line) line []

/-- Blanks have no letter case. -/
theorem toLower_of_isBlank {c : Char} (h : isBlank c) : c.toLower = c := by
  have hbounds : ¬ (65 ≤ c.toNat ∧ c.toNat ≤ 90) := by
    simp only [isBlank, Bool.or_eq_true, Bool.and_eq_true, decide_eq_true_eq, beq_iff_eq] at h
    omega
  exact dif_neg hbounds

/-- The Kelvin sign, whose lower-case form is `k`, makes no difference to other letters. -/
theorem lowerChar_eq_iff {c d : Char} (hk : d ≠ 'k') (hsign : d ≠ '\u212A') :
    lowerChar c = d ↔ c.toLower = d := by
  by_cases hc : c = '\u212A'
  · subst hc
    exact iff_of_false (Ne.symm hk) (Ne.symm hsign)
  · rw [lowerChar, if_neg (by simpa using hc)]

theorem yesWord_iff {word : List Char} :
    YesWord word ↔ String.ofList (word.map lowerChar) ∈ ["", "y", "yes"] := by
  have hempty : "" = String.ofList [] := rfl
  have hy : "y" = String.ofList ['y'] := rfl
  have hyes : "yes" = String.ofList ['y', 'e', 's'] := rfl
  have hlower_y (c : Char) : lowerChar c = 'y' ↔ c.toLower = 'y' :=
    lowerChar_eq_iff (by decide) (by decide)
  have hlower_e (c : Char) : lowerChar c = 'e' ↔ c.toLower = 'e' :=
    lowerChar_eq_iff (by decide) (by decide)
  have hlower_s (c : Char) : lowerChar c = 's' ↔ c.toLower = 's' :=
    lowerChar_eq_iff (by decide) (by decide)
  simp only [YesWord, List.mem_cons, List.not_mem_nil, or_false, hempty, hy, hyes,
    String.ofList_inj, List.map_eq_nil_iff, List.map_eq_cons_iff, hlower_y, hlower_e, hlower_s]

/-- A word that says yes has no blanks in it. -/
theorem YesWord.not_isBlank {word : List Char} (h : YesWord word) :
    ∀ c ∈ word, isBlank c = false := by
  intro c hc
  by_contra hblank
  have hmem : c ∈ word.map Char.toLower :=
    List.mem_map.mpr ⟨c, hc, toLower_of_isBlank (by simpa using hblank)⟩
  have hletter : ∀ target ∈ [[], ['y'], ['y', 'e', 's']], ∀ d ∈ target, isBlank d = false := by
    simp only [List.forall_mem_cons, List.not_mem_nil, false_imp_iff, implies_true, true_and,
      and_true]
    decide
  exact hblank (hletter _ h c hmem)

/-- A reply is taken for a yes exactly when it says yes. -/
theorem parseAnswer_eq_true_iff {reply : String} :
    parseAnswer reply true = true ↔ SaysYes reply := by
  have hparse : parseAnswer reply true = true ↔ YesWord (trimEnds isBlank reply.toList) := by
    rw [yesWord_iff, parseAnswer, lowerCase, trimBlanks, String.toList_ofList]
    split <;> simp_all
  rw [hparse]
  constructor
  · intro hword
    obtain ⟨lead, trail, hcut, hlead, htrail⟩ := exists_trimEnds isBlank reply.toList
    exact ⟨lead, _, trail, hcut, hlead, htrail, hword⟩
  · rintro ⟨lead, word, trail, hcut, hlead, htrail, hword⟩
    rwa [hcut, trimEnds_append hlead htrail
      (fun c hc => hword.not_isBlank c (List.mem_of_head? hc))
      (fun c hc => hword.not_isBlank c (List.mem_of_getLast? hc))]

/-! ## Lines of the input -/

theorem cutLine_of_notMem {bytes : Bytes} (h : lineFeed ∉ bytes) : cutLine bytes = (bytes, []) := by
  induction bytes with
  | nil => rfl
  | cons b rest ih =>
    rw [List.mem_cons, not_or] at h
    obtain ⟨hb, hrest⟩ := h
    rw [cutLine, if_neg (Ne.symm hb), ih hrest]

theorem cutLine_append {bytes : Bytes} (h : lineFeed ∉ bytes) (rest : Bytes) :
    cutLine (bytes ++ lineFeed :: rest) = (bytes ++ [lineFeed], rest) := by
  induction bytes with
  | nil => rfl
  | cons b front ih =>
    rw [List.mem_cons, not_or] at h
    obtain ⟨hb, hfront⟩ := h
    rw [List.cons_append, cutLine, if_neg (Ne.symm hb), ih hfront]
    rfl

theorem lineFeed_notMem_encode {text : String} (h : '\n' ∉ text.toList) :
    lineFeed ∉ Utf8.encode text :=
  fun hmem => h (Utf8.mem_of_mem_encode (by decide) hmem)

namespace FirstLine

variable {input rest : Bytes} {line : String}

/-- The first line is what is read, and the rest is left. -/
theorem cutLine_eq (h : FirstLine input line rest) : cutLine input = (Utf8.encode line, rest) := by
  cases h with
  | @ended body _ hbody =>
    have hend : Utf8.encode "\n" = [lineFeed] := by decide +kernel
    rw [Utf8.encode_append, hend, List.append_assoc, List.singleton_append,
      cutLine_append (lineFeed_notMem_encode hbody)]
  | last hline => exact cutLine_of_notMem (lineFeed_notMem_encode hline)

/-- A line feed only stands at the end of a line. -/
theorem getLast?_eq_iff (h : FirstLine input line rest) :
    line.toList.getLast? = some '\n' ↔ '\n' ∈ line.toList := by
  cases h with
  | ended => simp
  | last hline => exact iff_of_false (fun hlast => hline (List.mem_of_getLast? hlast)) hline

end FirstLine

/-! ## What follows the reply -/

/-- The world with bytes put in front of what has been reported, and with another input. -/
def World.preceded (before input : Bytes) : World → World :=
  retold (fun sink => { sink with written := before ++ sink.written }) (fun _ => input) id []

theorem unaware_report_preceded (before input : Bytes) (text : String) :
    Unaware (World.preceded before input) (report text) := by
  rintro ⟨tree, ⟨written, room⟩, input', log, asked, accesses⟩
  cases room with
  | none => simp [report, Action.write, Sink.write, World.preceded, retold, mapWorld]
  | some room =>
    by_cases hfits : (Utf8.encode text).length ≤ room <;>
      simp [report, Action.write, Sink.write, World.preceded, retold, mapWorld, hfits]

/-- What stands in the report between a question and what follows a reply that says yes. -/
def exchange (question reply : String) : String :=
  question ++ " (Y/n): " ++ if '\n' ∈ reply.toList then "" else "\n"

/-- A prompt uses up the first line of the input, and it agrees if that says yes. -/
theorem prompt_of_saysYes {w : World} (hroom : w.sink.room = none) {reply : String} {rest : Bytes}
    (hline : FirstLine w.input reply rest) (hyes : SaysYes reply) (question : String) :
    Confirmer.prompt.confirm question true w =
      .ok true { w with
        sink := ⟨w.sink.written ++ Utf8.encode (exchange question reply), none⟩
        input := rest } := by
  have hprompt : Confirmer.promptText question true = question ++ " (Y/n): " := by
    simp [Confirmer.promptText, Confirmer.hint, String.append_assoc]
  have hread : ∀ sink, readLine { w with sink } = .ok reply { w with sink, input := rest } := by
    intro sink
    have hdecode : Utf8.decode? (cutLine w.input).1 = some reply := by
      rw [hline.cutLine_eq]
      exact Utf8.decode?_encode reply
    rw [readLine_of_some (w := { w with sink }) hdecode, hline.cutLine_eq]
  show (report (Confirmer.promptText question true) >>= _) w = _
  rw [hprompt, bind_of_ok (report_of_room_eq_none hroom _), bind_of_ok (hread _)]
  by_cases hfeed : '\n' ∈ reply.toList
  · rw [if_neg (by simpa using hline.getLast?_eq_iff.mpr hfeed), parseAnswer_eq_true_iff.mpr hyes,
      exchange, if_pos hfeed, String.append_empty]
    rfl
  · rw [if_pos (mt hline.getLast?_eq_iff.mp hfeed), bind_of_ok (report_of_room_eq_none rfl _),
      parseAnswer_eq_true_iff.mpr hyes, exchange, if_neg hfeed]
    simp only [Utf8.encode_append, List.append_assoc]
    rfl

/-- Two worlds that differ in what is left of the input, which is `rest` in the second, and in the
report, which has `said` put in after `before` in the second. -/
structure World.Interjected (before said rest : Bytes) (w v : World) : Prop where
  others : v = { w with sink := v.sink, input := rest }
  written : ∃ after, w.sink.written = before ++ after ∧ v.sink.written = before ++ said ++ after

namespace Setup

/-- The setup with another confirmer. -/
def withConfirmer (s : Setup) (c : Confirmer) : Setup := { s with confirmer := c }

/-- The opening of a run does not know who confirms. -/
theorem opening_withConfirmer (s : Setup) (c : Confirmer) :
    (s.withConfirmer c).opening = s.opening := by
  have hscan : (s.withConfirmer c).scanAll = s.scanAll := funext (scanAll_congr rfl rfl)
  unfold opening
  rw [hscan]
  rfl

/-- What follows a yes does not know who has said it. -/
theorem carryOut_withConfirmer (s : Setup) (c : Confirmer) (scanned : ℕ)
    (results : List ScanResult) :
    (s.withConfirmer c).carryOut scanned results = s.carryOut scanned results := by
  unfold carryOut
  rw [removeAll_congr (s := s) (t := s.withConfirmer c) rfl rfl rfl]
  rfl

/-- What is put in before a removal stands before the report of the removal. -/
theorem interjected_carryOut (s : Setup) (scanned : ℕ) (results : List ScanResult) {w : World}
    (hroom : w.sink.room = none) (said rest : Bytes) :
    let r := s.carryOut scanned results w
    let r' := s.carryOut scanned results
      { w with sink := ⟨w.sink.written ++ said, none⟩, input := rest }
    upshot r' = upshot r ∧
      World.Interjected w.sink.written said rest (ending r) (ending r') := by
  intro r r'
  -- both removals go like one before which nothing has been reported
  have hcarries : ∀ written input,
      s.carryOut scanned results { w with sink := ⟨written, none⟩, input } =
        mapWorld (World.preceded written input)
          (s.carryOut scanned results { w with sink := ⟨[], none⟩ }) := by
    intro written input
    have hcarry : Unaware (World.preceded written input) (s.carryOut scanned results) :=
      unaware_carryOut (unaware_report_preceded written input) s scanned results
    rw [← hcarry { w with sink := ⟨[], none⟩ }]
    simp [World.preceded, retold]
  have hw : w = { w with sink := ⟨w.sink.written, none⟩ } := by rw [← hroom]
  have hr : r = _ := (congrArg (s.carryOut scanned results) hw).trans (hcarries _ _)
  have hr' : r' = _ := hcarries _ _
  rw [hr, hr', upshot_mapWorld, upshot_mapWorld, ending_mapWorld, ending_mapWorld]
  exact ⟨rfl, rfl, _, rfl, rfl⟩

/-- Summing up puts no question and uses up no input. -/
theorem sumUp_unasked (s : Setup) (summary : Summary) (w : World) :
    (ending (s.sumUp summary w)).asked = w.asked ∧
      (ending (s.sumUp summary w)).input = w.input := by
  rcases sumUp_cases s summary w with ⟨v, u, hsums, hreported, hquiet⟩ | ⟨u, hfails, hsame, -⟩
  · rw [hsums, ending, hquiet.asked, hquiet.input, hreported.others]
    exact ⟨rfl, rfl⟩
  · rw [hfails, ending, hsame]
    exact ⟨rfl, rfl⟩

/-- A run that is dry, finds nothing or fails early is the same whoever confirms it, puts no
question and uses up no input. Any other run is the same until it has reported what it found. -/
theorem unasked_or_announced (s : Setup)
    (hfind : s.others.duringFind = Interference.none.duringFind) (w : World) :
    (∃ r, (∀ c, (s.withConfirmer c).run w = r) ∧ (ending r).asked = w.asked ∧
        (ending r).input = w.input ∧
        (s.options.dryRun = true ∨ ∀ summary, upshot r ≠ .ok (.completed summary))) ∨
      s.options.dryRun = false ∧ ∃ files v, s.Announced files w v ∧
        ∀ c, (s.withConfirmer c).run w =
          (s.withConfirmer c).settle files.length (s.found w.tree files) v := by
  have hopened := opened hfind w
  have hopening : ∀ c, (s.withConfirmer c).opening w = s.opening w :=
    fun c => congrFun (opening_withConfirmer s c) w
  generalize s.opening w = r at hopened hopening
  cases hopened with
  | uncollected _ hquiet =>
    exact .inl ⟨_, fun c => run_of_opening_error (hopening c), hquiet.asked, hquiet.input,
      .inr fun _ h => by cases h⟩
  | unscanned _ _ _ hquiet =>
    exact .inl ⟨_, fun c => run_of_opening_error (hopening c), hquiet.asked, hquiet.input,
      .inr fun _ h => by cases h⟩
  | unreported hsurveyed hsame _ =>
    refine .inl ⟨_, fun c => run_of_opening_error (hopening c), ?_, ?_,
      .inr fun _ h => by cases h⟩ <;> rw [ending, hsame]
    · exact hsurveyed.quiet.asked
    · exact hsurveyed.quiet.input
  | nothingFound hsurveyed _ hreported =>
    refine .inl ⟨_, fun c => (run_of_opening (hopening c)).trans (if_pos rfl), ?_, ?_,
      .inr fun _ h => by cases h⟩ <;> rw [ending, hreported.others]
    · exact hsurveyed.quiet.asked
    · exact hsurveyed.quiet.input
  | @announced files v hannounced =>
    have hruns : ∀ c, (s.withConfirmer c).run w =
        (s.withConfirmer c).settle files.length (s.found w.tree files) v :=
      fun c => (run_of_opening (hopening c)).trans (if_neg hannounced.found)
    cases hdry : s.options.dryRun with
    | false => exact .inr ⟨rfl, files, v, hannounced, hruns⟩
    | true =>
      obtain ⟨hasked, hinput⟩ := sumUp_unasked s
        ⟨files.length, (s.found w.tree files).length, ((s.found w.tree files).map (·.count)).sum⟩ v
      rw [← carryOut_dry hdry] at hasked hinput
      refine .inl ⟨s.carryOut files.length (s.found w.tree files) v, fun c => ?_,
        hasked.trans hannounced.asked, hinput.trans hannounced.input, .inl rfl⟩
      rw [hruns, settle_dry (s := s.withConfirmer c) hdry, carryOut_withConfirmer]

/-- Once what was found has been reported, a run that agrees by itself and one that is told so do
the same. -/
theorem interjected_settle {s : Setup} (hreal : s.options.dryRun = false)
    (hagrees : s.confirmer = .fixed true) (scanned : ℕ) (results : List ScanResult) {w : World}
    (hroom : w.sink.room = none) {reply : String} {rest : Bytes}
    (hline : FirstLine w.input reply rest) (hyes : SaysYes reply) :
    let r := s.settle scanned results w
    let r' := (s.withConfirmer .prompt).settle scanned results w
    upshot r' = upshot r ∧ (ending r).asked = w.asked ++ [⟨s.question scanned results, true⟩] ∧
      World.Interjected w.sink.written (Utf8.encode (exchange (s.question scanned results) reply))
        rest (ending r) (ending r') := by
  intro r r'
  have hr : r = s.carryOut scanned results (s.asking scanned results w) := by
    have hsettles : r = _ := settle_real hreal w
    rw [hsettles, hagrees]
    rfl
  have hr' : r' = s.carryOut scanned results { s.asking scanned results w with
      sink := ⟨w.sink.written ++ Utf8.encode (exchange (s.question scanned results) reply), none⟩
      input := rest } := by
    have hprompt : (s.withConfirmer .prompt).confirmer.confirm
        ((s.withConfirmer .prompt).question scanned results) true
        ((s.withConfirmer .prompt).asking scanned results w) = _ :=
      prompt_of_saysYes (w := s.asking scanned results w) hroom hline hyes
        (s.question scanned results)
    have hsettles : r' = _ := settle_real (s := s.withConfirmer .prompt) hreal w
    rw [hsettles, bind_of_ok hprompt, ← carryOut_withConfirmer s .prompt]
    rfl
  have hasked := asked_carryOut (s := s) hreal scanned results (s.asking scanned results w)
  obtain ⟨hupshot, hreports⟩ := interjected_carryOut s scanned results
    (w := s.asking scanned results w) hroom
    (Utf8.encode (exchange (s.question scanned results) reply)) rest
  rw [hr, hr']
  exact ⟨hupshot, hasked, hreports⟩

/-- **Agreeing beforehand is the same as replying with a yes.** On a sink without a limit, a run
whose user replies with a yes ends like a run that agrees by itself, and leaves the same files. If
the run is dry, finds nothing or fails, the two are the same, there is no question, and no input is
used up. Otherwise the question, its hint, and a line feed if the reply has none, stand in the
report where it has told the totals of the scan; the first line of the input is used up; and nothing
else differs. -/
theorem prompted_as_agreed (o : Options) (p : Palette) {w : World} (hroom : w.sink.room = none)
    {reply : String} {rest : Bytes} (hline : FirstLine w.input reply rest)
    (hyes : SaysYes reply) :
    let s : Setup := ⟨o, p, .fixed true, .none⟩
    let agreed := s.run w
    let prompted := (s.withConfirmer .prompt).run w
    upshot prompted = upshot agreed ∧ (ending prompted).tree = (ending agreed).tree ∧
      (o.dryRun = true ∨ (∀ summary, upshot agreed ≠ .ok (.completed summary)) →
        prompted = agreed ∧ (ending agreed).asked = w.asked ∧ (ending agreed).input = w.input) ∧
      (o.dryRun = false → ∀ summary, upshot agreed = .ok (.completed summary) →
        ∃ files, collect o w.tree = .ok files ∧
          let results := s.found w.tree files
          let found := Summary.ofScan files.length results
          let sections := String.join (results.map fun r => Report.file p r false)
          (ending agreed).asked = w.asked ++ [⟨Report.prompt p found, true⟩] ∧
            World.Interjected
              (w.sink.written ++ Utf8.encode (sections ++ Report.scanSummary p found))
              (Utf8.encode (exchange (Report.prompt p found) reply)) rest
              (ending agreed) (ending prompted)) := by
  intro s agreed prompted
  rcases unasked_or_announced s rfl w with
    ⟨r, hruns, hasked, hinput, hskips⟩ | ⟨hreal, files, v, hannounced, hruns⟩
  · have hagreed : agreed = r := hruns (.fixed true)
    have hprompted : prompted = r := hruns .prompt
    rw [hprompted, hagreed]
    refine ⟨rfl, rfl, fun _ => ⟨rfl, hasked, hinput⟩, fun hreal summary hends => ?_⟩
    rcases hskips with hdry | hne
    · cases hreal.symm.trans hdry
    · exact absurd hends (hne summary)
  · have hagreed : agreed = s.settle files.length (s.found w.tree files) v := hruns (.fixed true)
    have hprompted : prompted = _ := hruns .prompt
    obtain ⟨u, hsurveyed, hreported⟩ := hannounced.reported
    have hroom' : v.sink.room = none := by rw [hreported.room, hsurveyed.quiet.sink, hroom]
    obtain ⟨hupshot, hasked, hreports⟩ := interjected_settle (s := s) hreal rfl
      files.length (s.found w.tree files) hroom' (hannounced.input ▸ hline) hyes
    rw [← hagreed, ← hprompted] at hupshot hreports
    rw [← hagreed, hannounced.asked] at hasked
    refine ⟨hupshot, by rw [hreports.others], fun hskips => ?_, fun _ _ _ => ?_⟩
    · -- a run that gets to the question and agrees is completed
      rcases hskips with hdry | hne
      · cases hreal.symm.trans hdry
      · rcases agreed_cases (s := s) rfl hreal rfl hroom hsurveyed.collected hsurveyed.readable with
          ⟨hnone, -⟩ | ⟨-, counts, w', hends, -⟩
        · rw [← paths_found, List.map_eq_nil_iff] at hnone
          exact absurd hnone hannounced.found
        · exact absurd (congrArg upshot hends) (hne _)
    · refine ⟨files, hsurveyed.collected, hasked, ?_⟩
      have hbefore := hreported.written
      rw [hsurveyed.quiet.sink, announcement, hreal] at hbefore
      rw [hbefore] at hreports
      exact hreports

set_option maxRecDepth 10000 in
theorem prompted_as_agreed_linked :
    let w := World.start fileAndLinkTree none (Utf8.encode " Yes \nmore")
    FirstLine w.input " Yes \n" (Utf8.encode "more") ∧ SaysYes " Yes \n" ∧
      upshot ((agreedHere.withConfirmer .prompt).run w) = .ok (.completed ⟨2, 2, 1⟩) ∧
      (ending ((agreedHere.withConfirmer .prompt).run w)).input = Utf8.encode "more" := by
  intro w
  have hline : FirstLine w.input " Yes \n" (Utf8.encode "more") := by
    have hbody : '\n' ∉ " Yes ".toList := by decide
    have hinput : w.input = Utf8.encode (" Yes " ++ "\n") ++ Utf8.encode "more" := by
      decide +kernel
    rw [hinput]
    exact .ended hbody
  have hyes : SaysYes " Yes \n" := parseAnswer_eq_true_iff.mp (by decide +kernel)
  have hends : upshot (agreedHere.run w) = .ok (.completed ⟨2, 2, 1⟩) := by
    rw [eq_ok_of_result? (r := agreedHere.run w) (a := .completed ⟨2, 2, 1⟩) (by decide +kernel)]
    rfl
  obtain ⟨hupshot, -, -, hasks⟩ :=
    prompted_as_agreed agreedHere.options agreedHere.palette (w := w) rfl hline hyes
  obtain ⟨files, -, -, hreports⟩ := hasks rfl _ hends
  exact ⟨hline, hyes, hupshot.trans hends, congrArg World.input hreports.others⟩

end Setup

end ConsoleSweep
