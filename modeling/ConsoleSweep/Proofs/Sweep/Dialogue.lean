import ConsoleSweep.Proofs.Sweep.Reply

/-!
# Questions put in turn

A confirmer that prompts reads one line of the input for each question, whatever comes of it. So the
questions put to it in turn are answered by the lines of the input in turn, and by nothing once the
input is used up (`asked_in_turn`). What comes of a question depends on its own line alone; a line
that is no text makes its question fail and is used up like any other.

## Shape of the proof

* `Lines` is the one way to cut an input into lines (`exists_lines`, `Lines.unique`), and reading
  takes the first of them off (`Lines.cutLine_eq`).
* `answers_respond` says what comes of one question, and `prompt_respond` that a prompt does that
  and uses up one line.
* `askAll_prompt` puts one question after the other.
-/

namespace ConsoleSweep

open ConsoleSweep.Action

/-! ## Lines of an input -/

/-- The lines of an input. A line feed ends each of them and stands nowhere else, but the last line
may end with the input instead. -/
inductive Lines : (input : Bytes) → (lines : List Bytes) → Prop where
  | none : Lines [] []
  | last {line : Bytes} (hne : line ≠ []) (hline : lineFeed ∉ line) : Lines line [line]
  | ended {front rest : Bytes} {lines : List Bytes} (hfront : lineFeed ∉ front)
      (hrest : Lines rest lines) :
      Lines (front ++ lineFeed :: rest) ((front ++ [lineFeed]) :: lines)

/-- Every input has lines. -/
theorem exists_lines (input : Bytes) : ∃ lines, Lines input lines := by
  by_cases hfeed : lineFeed ∈ input
  · obtain ⟨front, rest, rfl, hfront⟩ := List.eq_append_cons_of_mem hfeed
    obtain ⟨lines, hlines⟩ := exists_lines rest
    exact ⟨_, .ended hfront hlines⟩
  · by_cases hne : input = []
    · exact ⟨[], hne ▸ .none⟩
    · exact ⟨[input], .last hne hfeed⟩
termination_by input.length
decreasing_by
  rename_i hinput
  rw [hinput, List.length_append, List.length_cons]
  omega

namespace Lines

variable {input : Bytes} {lines lines' : List Bytes}

theorem flatten_eq (h : Lines input lines) : lines.flatten = input := by
  induction h with
  | none => rfl
  | last => simp
  | ended _ _ ih => simp [ih]

/-- The first line is what is read, and the other lines are left. -/
theorem cutLine_eq (h : Lines input lines) :
    cutLine input = (lines.headD [], lines.tail.flatten) := by
  cases h with
  | none => rfl
  | last _ hline => exact cutLine_of_notMem hline
  | ended hfront hrest =>
    rw [cutLine_append hfront, List.headD_cons, List.tail_cons, hrest.flatten_eq]

/-- The other lines are those of what is left. -/
theorem tail (h : Lines input lines) : Lines lines.tail.flatten lines.tail := by
  cases h with
  | none => exact .none
  | last => exact .none
  | ended _ hrest =>
    rw [List.tail_cons, hrest.flatten_eq]
    exact hrest

theorem eq_nil_iff (h : Lines input lines) : lines = [] ↔ input = [] := by
  cases h with
  | none => exact iff_of_true rfl rfl
  | last hne => exact iff_of_false (List.cons_ne_nil _ _) hne
  | ended => exact iff_of_false (List.cons_ne_nil _ _) (by simp)

/-- An input has no other lines. -/
theorem unique (h : Lines input lines) (h' : Lines input lines') : lines = lines' := by
  induction lines generalizing input lines' with
  | nil => exact (h'.eq_nil_iff.mpr (h.eq_nil_iff.mp rfl)).symm
  | cons line others ih =>
    cases lines' with
    | nil => exact h.eq_nil_iff.mpr (h'.eq_nil_iff.mp rfl)
    | cons line' others' =>
      obtain ⟨hline, hrest⟩ := Prod.mk.inj (h.cutLine_eq.symm.trans h'.cutLine_eq)
      simp only [List.headD_cons, List.tail_cons] at hline hrest
      have htail := h'.tail
      rw [List.tail_cons, ← hrest] at htail
      rw [hline, ih h.tail htail]

end Lines

/-! ## What comes of a question -/

/-- The word that a reply gives: what is left when the blanks around it are dropped. -/
structure Gives (reply : String) (word : List Char) : Prop where
  cut : ∃ lead trail, reply.toList = lead ++ word ++ trail ∧ (∀ c ∈ lead, isBlank c) ∧
    ∀ c ∈ trail, isBlank c
  first : ∀ c ∈ word.head?, isBlank c = false
  last : ∀ c ∈ word.getLast?, isBlank c = false

/-- What a question comes to: the answer or a failure, and what was written. -/
structure Response where
  answer : Except Failure Bool
  written : Bytes

/-- What a question comes to that is replied to by a line of the input, or by nothing if the input
is used up. -/
inductive Answers (ask : Ask) (line : Bytes) : Response → Prop where
  /-- The line is text. -/
  | heard {reply : String} {word : List Char} {answer : Bool} (hline : line = Utf8.encode reply)
      (hword : Gives reply word)
      (hanswer : answer = if word = [] then ask.default else
        decide (word.map Char.toLower ∈ [['y'], ['y', 'e', 's']])) :
      Answers ask line ⟨.ok answer,
        Utf8.encode (ask.question ++ " " ++ (if ask.default then "(Y/n)" else "(y/N)") ++ ": ") ++
          if line.getLast? = some lineFeed then [] else [lineFeed]⟩
  /-- The line is no text. -/
  | unheard (hline : ∀ text, line ≠ Utf8.encode text) :
      Answers ask line ⟨.error (.replying .notText),
        Utf8.encode (ask.question ++ " " ++ (if ask.default then "(Y/n)" else "(y/N)") ++ ": ")⟩

/-- What a prompt makes of a question and the line that replies to it. -/
def respond (ask : Ask) (line : Bytes) : Response :=
  match Utf8.decode? line with
  | some reply => ⟨.ok (parseAnswer reply ask.default),
      Utf8.encode (Confirmer.promptText ask.question ask.default) ++
        if line.getLast? = some lineFeed then [] else [lineFeed]⟩
  | none => ⟨.error (.replying .notText),
      Utf8.encode (Confirmer.promptText ask.question ask.default)⟩

theorem gives_trimEnds (reply : String) : Gives reply (trimEnds isBlank reply.toList) :=
  have htrims := trims_trimEnds isBlank reply.toList
  ⟨htrims.cut, htrims.first, htrims.last⟩

/-- How a reply is taken follows from the word that it gives. -/
theorem parseAnswer_eq {reply : String} {word : List Char} (h : Gives reply word) (default : Bool) :
    parseAnswer reply default = if word = [] then default else
      decide (word.map Char.toLower ∈ [['y'], ['y', 'e', 's']]) := by
  have htrim : trimEnds isBlank reply.toList = word := Trims.eq ⟨h.cut, h.first, h.last⟩
  have hyes : word ≠ [] → (word.map Char.toLower ∈ [['y'], ['y', 'e', 's']] ↔
      String.ofList (word.map lowerChar) ∈ ["y", "yes"]) := by
    intro hne
    have hword : YesWord word ↔ _ := yesWord_iff
    simpa [YesWord, hne] using hword
  rw [parseAnswer, lowerCase, trimBlanks, String.toList_ofList, htrim]
  by_cases hne : word = []
  · rw [hne]
    rfl
  · have hdecide : decide (word.map Char.toLower ∈ [['y'], ['y', 'e', 's']]) =
        decide (String.ofList (word.map lowerChar) ∈ ["y", "yes"]) :=
      decide_eq_decide.mpr (hyes hne)
    rw [if_neg hne, hdecide]
    split <;> simp_all

/-- A text ends with a line feed just if its bytes do. -/
theorem getLast?_encode_eq_iff {text : String} :
    (Utf8.encode text).getLast? = some lineFeed ↔ text.toList.getLast? = some '\n' := by
  have hbytes : ∀ front c, text.toList = front ++ [c] →
      Utf8.encode text = front.flatMap String.utf8EncodeChar ++ String.utf8EncodeChar c := by
    intro front c hchars
    rw [Utf8.encode, hchars, List.flatMap_append, List.flatMap_singleton]
  constructor
  · intro hlast
    rcases List.eq_nil_or_concat' text.toList with hnil | ⟨front, c, hchars⟩
    · rw [Utf8.encode, hnil] at hlast
      cases hlast
    · have hne : String.utf8EncodeChar c ≠ [] :=
        List.ne_nil_of_length_pos (by rw [String.length_utf8EncodeChar]; exact c.utf8Size_pos)
      rw [hbytes front c hchars, List.getLast?_append_of_ne_nil _ hne] at hlast
      have hcode := Utf8.toNat_of_mem_encodeChar (by decide) (List.mem_of_getLast? hlast)
      have hfeed : c = '\n' := by
        rw [← Char.ofNat_toNat c, Char.toNat, hcode]
        rfl
      rw [hchars, hfeed, List.getLast?_append]
      rfl
  · intro hlast
    obtain ⟨front, hfront⟩ := List.getLast?_eq_some_iff.mp hlast
    rw [hbytes front _ hfront, List.getLast?_append]
    rfl

/-- Just this comes of a question and a line. -/
theorem answers_respond (ask : Ask) (line : Bytes) : Answers ask line (respond ask line) := by
  unfold respond
  cases hread : Utf8.decode? line with
  | some reply =>
    have hword := gives_trimEnds reply
    exact .heard (Utf8.decode?_eq_some_iff.mp hread) hword (parseAnswer_eq hword ask.default)
  | none =>
    refine .unheard fun text htext => ?_
    rw [Utf8.decode?_eq_some_iff.mpr htext] at hread
    cases hread

/-! ## One question after the other -/

/-- Puts questions to a confirmer, each whatever the one before it has come to, and says what each
of them comes to. -/
def Confirmer.askAll (c : Confirmer) : List Ask → World → List Response × World
  | [], w => ([], w)
  | ask :: asks, w =>
    let outcome := c.confirm ask.question ask.default w
    let (others, last) := c.askAll asks (ending outcome)
    (⟨upshot outcome, (ending outcome).sink.written.drop w.sink.written.length⟩ :: others, last)

section Prompt

variable {w : World} (hroom : w.sink.room = none) {lines : List Bytes}
  (hlines : Lines w.input lines)

include hroom hlines

/-- **A prompt** takes its reply from the first line of the input and uses that line up. -/
theorem prompt_respond (ask : Ask) :
    upshot (Confirmer.prompt.confirm ask.question ask.default w) =
        (respond ask (lines.headD [])).answer ∧
      ending (Confirmer.prompt.confirm ask.question ask.default w) =
        { w with
          sink := ⟨w.sink.written ++ (respond ask (lines.headD [])).written, none⟩
          input := lines.tail.flatten } := by
  have hreads := hlines.cutLine_eq
  have hprompt : Confirmer.prompt.confirm ask.question ask.default w = _ :=
    bind_of_ok (report_of_room_eq_none hroom _)
  rw [hprompt, respond]
  cases hread : Utf8.decode? (lines.headD []) with
  | none =>
    rw [bind_of_error (readLine_of_none (by rw [hreads]; exact hread))]
    rw [hreads]
    exact ⟨rfl, rfl⟩
  | some reply =>
    have hline := Utf8.decode?_eq_some_iff.mp hread
    rw [bind_of_ok (readLine_of_some (by rw [hreads]; exact hread)), hreads]
    by_cases hfeed : reply.toList.getLast? = some '\n'
    · have hends : (lines.headD []).getLast? = some lineFeed :=
        hline ▸ getLast?_encode_eq_iff.mpr hfeed
      rw [if_neg (by simpa using hfeed), if_pos hends, List.append_nil]
      exact ⟨rfl, rfl⟩
    · have hends : (lines.headD []).getLast? ≠ some lineFeed :=
        hline ▸ mt getLast?_encode_eq_iff.mp hfeed
      rw [if_pos hfeed, bind_of_ok (report_of_room_eq_none rfl _), if_neg hends,
        ← List.append_assoc]
      exact ⟨rfl, rfl⟩

/-- **Questions put in turn** are replied to by the lines in turn. -/
theorem askAll_prompt (asks : List Ask) :
    let responses := asks.mapIdx fun i ask => respond ask (lines.getD i [])
    Confirmer.prompt.askAll asks w = (responses,
      { w with
        sink := ⟨w.sink.written ++ responses.flatMap Response.written, none⟩
        input := (lines.drop asks.length).flatten }) := by
  induction asks generalizing w lines with
  | nil =>
    obtain ⟨tree, ⟨written, room⟩, input, log, asked, accesses⟩ := w
    have hinput : lines.flatten = input := hlines.flatten_eq
    cases hroom
    simp [Confirmer.askAll, hinput]
  | cons ask asks ih =>
    obtain ⟨hanswer, hends⟩ := prompt_respond hroom hlines ask
    -- the questions after the first one start where it has used up its line
    have hothers : Lines (ending (Confirmer.prompt.confirm ask.question ask.default w)).input
        lines.tail := by
      rw [hends]
      exact hlines.tail
    have hrest := ih (by rw [hends]) hothers
    have hlater : ∀ i, lines.tail.getD i [] = lines.getD (i + 1) [] := fun i => by
      cases lines <;> rfl
    have hfirst : lines.headD [] = lines.getD 0 [] := by cases lines <;> rfl
    simp only [hlater, hends] at hrest
    simp only [Confirmer.askAll, hanswer, hends, hrest]
    simp only [List.mapIdx_cons, hfirst, List.drop_left, List.flatMap_cons, List.append_assoc,
      List.length_cons, List.drop_tail]

end Prompt

/-- **A sequence of prompts uses up the lines of the input one by one.** On a sink without a limit,
each question put to a confirmer that prompts is replied to by the line of its number, or by nothing
once the lines are used up, and that settles what it comes to and what is written. Whatever a
question comes to, the ones after it go by their own lines; in the end the lines that have not
replied to any are what is left of the input, and nothing else has changed. -/
theorem asked_in_turn {w : World} (hroom : w.sink.room = none) (asks : List Ask) :
    ∃ lines, Lines w.input lines ∧ (∀ lines', Lines w.input lines' → lines' = lines) ∧
      (∀ ask line, Answers ask line (respond ask line)) ∧
      let responses := asks.mapIdx fun i ask => respond ask (lines.getD i [])
      Confirmer.prompt.askAll asks w = (responses,
        { w with
          sink := ⟨w.sink.written ++ responses.flatMap Response.written, none⟩
          input := (lines.drop asks.length).flatten }) := by
  obtain ⟨lines, hlines⟩ := exists_lines w.input
  exact ⟨lines, hlines, fun _ h => h.unique hlines, answers_respond,
    askAll_prompt hroom hlines asks⟩

/-- Input with lines of all kinds: one with a carriage return before its line feed, one that is no
text, one with nothing in it, and one that the input ends. -/
def mixedInput : Bytes :=
  Utf8.encode "Yes\r" ++ lineFeed :: ([0xFF] ++ lineFeed :: ([] ++ lineFeed :: Utf8.encode "no"))

/-- The second question fails and uses its line up; the third and the fifth, for which there is no
line left, get their defaults. -/
theorem asked_in_turn_mixed :
    let asks : List Ask := [⟨"a", false⟩, ⟨"b", true⟩, ⟨"c", true⟩, ⟨"d", true⟩, ⟨"e", true⟩]
    let responses := (Confirmer.prompt.askAll asks (World.start .empty none mixedInput)).1
    responses.map Response.answer =
        [.ok true, .error (.replying .notText), .ok true, .ok false, .ok true] ∧
      responses.map Response.written = [Utf8.encode "a (y/N): ", Utf8.encode "b (Y/n): ",
        Utf8.encode "c (Y/n): ", Utf8.encode "d (Y/n): \n", Utf8.encode "e (Y/n): \n"] := by
  intro asks responses
  have hlines : Lines mixedInput
      [Utf8.encode "Yes\r" ++ [lineFeed], [0xFF] ++ [lineFeed], [] ++ [lineFeed],
        Utf8.encode "no"] :=
    .ended (by decide +kernel) <| .ended (by decide) <| .ended (by decide) <|
      .last (by decide +kernel) (by decide +kernel)
  obtain ⟨lines, -, honly, -, hall⟩ :=
    asked_in_turn (w := World.start .empty none mixedInput) rfl asks
  cases honly _ hlines
  have hresponses : responses = _ := congrArg Prod.fst hall
  rw [hresponses]
  exact ⟨by decide +kernel, by decide +kernel⟩

end ConsoleSweep
