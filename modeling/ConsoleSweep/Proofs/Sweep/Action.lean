import ConsoleSweep.Proofs.FileTree.Content
import ConsoleSweep.Sweep.Confirm

/-!
# What actions do to the world

An action is a function of the world it starts in, so a sequence of actions is followed by following
each in turn: `bind_of_ok` and `bind_of_error` take one step forward, `bind_eq_ok` one step back.

Three relations between worlds say what happened in between. `World.Untouched` means that files were
read at most, whatever else was done; `World.Quiet` that files were read and records logged, none of
them a warning, and nothing else was done; `World.Reported` that a text was written to the sink in
full and nothing else was done. Each of them composes. An action is `Discreet` if it keeps away from
files and puts no question, however it ends.
-/

namespace ConsoleSweep

namespace Action

variable {ε α β : Type} {act : Action ε α} {next : α → Action ε β} {w w' w'' : World} {a : α}
  {b : β} {e : ε}

/-- The world an action ends in, whether or not it fails. -/
def ending : EStateM.Result ε World α → World
  | .ok _ w => w
  | .error _ w => w

/-- The result of an action that does not fail. -/
def result? : EStateM.Result ε World α → Option α
  | .ok a _ => some a
  | .error _ _ => none

/-- How an action ends: with a result or with a failure. -/
def upshot : EStateM.Result ε World α → Except ε α
  | .ok a _ => .ok a
  | .error e _ => .error e

theorem eq_ok_of_result? {r : EStateM.Result ε World α} (h : result? r = some a) :
    r = .ok a (ending r) := by
  cases r with
  | ok b w => cases h; rfl
  | error e w => cases h

theorem bind_of_ok (h : act w = .ok a w') : (act >>= next) w = next a w' := by
  show EStateM.bind act next w = next a w'
  rw [EStateM.bind, h]

theorem bind_of_error (h : act w = .error e w') : (act >>= next) w = .error e w' := by
  show EStateM.bind act next w = .error e w'
  rw [EStateM.bind, h]

/-- A sequence that succeeds goes through a world in which its first part has succeeded. -/
theorem bind_eq_ok (h : (act >>= next) w = .ok b w'') :
    ∃ a w', act w = .ok a w' ∧ next a w' = .ok b w'' := by
  cases hact : act w with
  | ok a w' => exact ⟨a, w', rfl, (bind_of_ok hact).symm.trans h⟩
  | error e w' => rw [bind_of_error hact] at h; cases h

theorem get_eq (w : World) : (get : Action ε World) w = .ok w w := rfl

theorem logAll_eq (records : List Log.Record) (w : World) :
    (logAll records : Action ε Unit) w = .ok () { w with log := w.log ++ records } := rfl

theorem log_eq (level : Log.Level) (source : Log.Source) (text : String) (w : World) :
    (log level source text : Action ε Unit) w =
      .ok () { w with log := w.log ++ [⟨level, source, text⟩] } := rfl

theorem outside_eq (change : FileTree → FileTree) (w : World) :
    (outside change : Action ε Unit) w = .ok () { w with tree := change w.tree } := rfl

theorem note_eq (access : Access) (w : World) :
    (note access : Action ε Unit) w = .ok () { w with accesses := w.accesses ++ [access] } := rfl

theorem within_of_ok {ε' : Type} {context : ε → ε'} (h : act w = .ok a w') :
    act.within context w = .ok a w' := by
  rw [within, h]

theorem within_of_error {ε' : Type} {context : ε → ε'} (h : act w = .error e w') :
    act.within context w = .error (context e) w' := by
  rw [within, h]

end Action

namespace World

/-! ## Reading -/

/-- From one world to another, files were read at most. -/
structure Untouched (w w' : World) : Prop where
  tree : w'.tree = w.tree
  accesses : ∃ paths : List Path, w'.accesses = w.accesses ++ paths.map .read

variable {w w' w'' : World}

theorem untouched_of_same (htree : w'.tree = w.tree) (haccesses : w'.accesses = w.accesses) :
    w.Untouched w' :=
  ⟨htree, [], by rw [haccesses, List.map_nil, List.append_nil]⟩

theorem Untouched.trans (h : w.Untouched w') (h' : w'.Untouched w'') : w.Untouched w'' where
  tree := h'.tree.trans h.tree
  accesses := by
    obtain ⟨paths, hpaths⟩ := h.accesses
    obtain ⟨paths', hpaths'⟩ := h'.accesses
    exact ⟨paths ++ paths', by rw [hpaths', hpaths, List.map_append, List.append_assoc]⟩

/-! ## Reading and logging -/

/-- From one world to another, files were read and records logged, but no warning, and nothing else
was done. -/
structure Quiet (w w' : World) : Prop extends w.Untouched w' where
  sink : w'.sink = w.sink
  input : w'.input = w.input
  asked : w'.asked = w.asked
  log : ∃ records, w'.log = w.log ++ records ∧ ∀ r ∈ records, r.level ≠ .warn

theorem Quiet.refl (w : World) : w.Quiet w where
  toUntouched := untouched_of_same rfl rfl
  sink := rfl
  input := rfl
  asked := rfl
  log := ⟨[], by simp⟩

theorem Quiet.trans (h : w.Quiet w') (h' : w'.Quiet w'') : w.Quiet w'' where
  toUntouched := h.toUntouched.trans h'.toUntouched
  sink := h'.sink.trans h.sink
  input := h'.input.trans h.input
  asked := h'.asked.trans h.asked
  log := by
    obtain ⟨records, hrecords, hcalm⟩ := h.log
    obtain ⟨records', hrecords', hcalm'⟩ := h'.log
    refine ⟨records ++ records', by rw [hrecords', hrecords, List.append_assoc], fun r hr => ?_⟩
    rcases List.mem_append.mp hr with hr | hr
    · exact hcalm r hr
    · exact hcalm' r hr

theorem quiet_logAll (w : World) {records : List Log.Record} (h : ∀ r ∈ records, r.level ≠ .warn) :
    w.Quiet { w with log := w.log ++ records } where
  toUntouched := untouched_of_same rfl rfl
  sink := rfl
  input := rfl
  asked := rfl
  log := ⟨records, rfl, h⟩

theorem quiet_log (w : World) (level : Log.Level) (source : Log.Source) (text : String)
    (h : level ≠ .warn) : w.Quiet { w with log := w.log ++ [⟨level, source, text⟩] } :=
  w.quiet_logAll (by simpa using h)

theorem quiet_read (w : World) (path : Path) :
    w.Quiet { w with accesses := w.accesses ++ [.read path] } where
  tree := rfl
  accesses := ⟨[path], rfl⟩
  sink := rfl
  input := rfl
  asked := rfl
  log := ⟨[], by simp⟩

/-! ## Reporting -/

/-- From one world to another, a text was written to the sink in full, and nothing else was done. -/
structure Reported (text : String) (w w' : World) : Prop where
  others : w' = { w with sink := w'.sink }
  written : w'.sink.written = w.sink.written ++ Utf8.encode text
  room : w'.sink.room = none ↔ w.sink.room = none

theorem Reported.untouched {text : String} (h : w.Reported text w') : w.Untouched w' := by
  rw [h.others]
  exact untouched_of_same rfl rfl

theorem Reported.refl (w : World) : w.Reported "" w where
  others := rfl
  written := by simp [Utf8.encode]
  room := Iff.rfl

theorem Reported.trans {text text' : String} (h : w.Reported text w') (h' : w'.Reported text' w'') :
    w.Reported (text ++ text') w'' where
  others := by rw [h'.others, h.others]
  written := by rw [h'.written, h.written, List.append_assoc, Utf8.encode_append]
  room := h'.room.trans h.room

/-- From one world to another, the first part of a text was written to the sink, which had no room
for all of it, and nothing else was done. -/
structure CutShort (text : String) (w w' : World) : Prop where
  others : w' = { w with sink := w'.sink }
  written : ∃ k < (Utf8.encode text).length,
    w'.sink.written = w.sink.written ++ (Utf8.encode text).take k
  room : w.sink.room ≠ none

end World

namespace Sink

/-- What fits is kept whole. -/
theorem written_write {s : Sink} {bytes : Bytes} (h : (s.write bytes).1 = true) :
    (s.write bytes).2.written = s.written ++ bytes := by
  rw [write] at h ⊢
  cases hroom : s.room with
  | none => rfl
  | some room =>
    simp only [hroom, decide_eq_true_eq] at h
    simp [List.take_of_length_le h]

theorem room_write (s : Sink) (bytes : Bytes) :
    (s.write bytes).2.room = none ↔ s.room = none := by
  rw [write]
  cases s.room <;> simp

/-- Everything fits into a sink without a limit. -/
theorem fits_of_room_eq_none {s : Sink} (h : s.room = none) (bytes : Bytes) :
    (s.write bytes).1 = true := by
  rw [write, h]

/-- What does not fit fills a sink up. -/
theorem full_write {s : Sink} {bytes : Bytes} (hfull : (s.write bytes).1 = false) :
    (s.write bytes).2.room = some 0 ∧
      ∃ k < bytes.length, (s.write bytes).2.written = s.written ++ bytes.take k := by
  cases hroom : s.room with
  | none =>
    rw [fits_of_room_eq_none hroom] at hfull
    cases hfull
  | some room =>
    have hlength : room < bytes.length := by simpa [write, hroom] using hfull
    refine ⟨?_, room, hlength, ?_⟩
    · simp only [write, hroom, Option.some.injEq]
      omega
    · simp [write, hroom]

end Sink

/-- Reporting writes the whole text, or as much of it as a limited sink takes. -/
theorem report_cases (text : String) (w : World) :
    (∃ w', report text w = .ok () w' ∧ w.Reported text w') ∨
      ∃ w', report text w = .error .sinkFull w' ∧ w.CutShort text w' := by
  cases hfits : (w.sink.write (Utf8.encode text)).1 with
  | true =>
    refine .inl ⟨{ w with sink := (w.sink.write (Utf8.encode text)).2 }, ?_, rfl, ?_, ?_⟩
    · simp [report, Action.write, hfits]
    · exact Sink.written_write hfits
    · exact Sink.room_write _ _
  | false =>
    obtain ⟨-, hwritten⟩ := Sink.full_write hfits
    refine .inr ⟨{ w with sink := (w.sink.write (Utf8.encode text)).2 }, ?_, rfl, hwritten,
      fun hroom => ?_⟩
    · simp [report, Action.write, hfits]
    · rw [Sink.fits_of_room_eq_none hroom] at hfits
      cases hfits

/-- A sink without a limit takes the whole text. -/
theorem report_of_room_eq_none {w : World} (h : w.sink.room = none) (text : String) :
    report text w = .ok () { w with sink := ⟨w.sink.written ++ Utf8.encode text, none⟩ } := by
  simp only [report, Action.write, Sink.write, h, if_true]

namespace Action

/-! ## Keeping away from files -/

section Discreet

variable {ε α β : Type} {act : Action ε α} {next : α → Action ε β}

/-- An action that reads and writes no file and puts no question. -/
def Discreet (act : Action ε α) : Prop :=
  ∀ w, (ending (act w)).tree = w.tree ∧ (ending (act w)).accesses = w.accesses ∧
    (ending (act w)).asked = w.asked

/-- What keeps away from files leaves them untouched. -/
theorem Discreet.untouched (h : Discreet act) (w : World) : w.Untouched (ending (act w)) :=
  World.untouched_of_same (h w).1 (h w).2.1

theorem discreet_pure (a : α) : Discreet (pure a : Action ε α) := fun _ => ⟨rfl, rfl, rfl⟩

theorem discreet_throw (e : ε) : Discreet (throw e : Action ε α) := fun _ => ⟨rfl, rfl, rfl⟩

theorem discreet_log (level : Log.Level) (source : Log.Source) (text : String) :
    Discreet (log level source text : Action ε Unit) := fun _ => ⟨rfl, rfl, rfl⟩

theorem Discreet.bind (h : Discreet act) (hnext : ∀ a, Discreet (next a)) :
    Discreet (act >>= next) := by
  intro w
  have hw := h w
  cases hact : act w with
  | error e w' =>
    rw [hact] at hw
    rw [bind_of_error hact]
    exact hw
  | ok a w' =>
    rw [hact] at hw
    obtain ⟨htree, haccesses, hasked⟩ := hnext a w'
    rw [bind_of_ok hact]
    exact ⟨htree.trans hw.1, haccesses.trans hw.2.1, hasked.trans hw.2.2⟩

theorem discreet_report (text : String) : Discreet (report text) := by
  intro w
  rcases report_cases text w with ⟨v, hreport, hreported⟩ | ⟨v, hreport, hcut⟩
  · rw [hreport]
    refine ⟨?_, ?_, ?_⟩ <;> rw [ending, hreported.others]
  · rw [hreport]
    refine ⟨?_, ?_, ?_⟩ <;> rw [ending, hcut.others]

end Discreet

/-! ## Reading and writing files -/

variable {w : World} {path : Path}

theorem readText_of_ok {text : String} (h : w.tree.readText path = .ok text) :
    readText path w = .ok text { w with accesses := w.accesses ++ [.read path] } := by
  rw [readText, bind_of_ok (note_eq _ w), bind_of_ok (get_eq _)]
  simp only [h]
  rfl

theorem readText_of_error {fault : Fault} (h : w.tree.readText path = .error fault) :
    readText path w =
      .error (.unreadable path fault) { w with accesses := w.accesses ++ [.read path] } := by
  rw [readText, bind_of_ok (note_eq _ w), bind_of_ok (get_eq _)]
  simp only [h]
  rfl

theorem writeText_of_ok {text : String} {tree : FileTree}
    (h : w.tree.write path (Utf8.encode text) = .ok tree) :
    writeText path text w =
      .ok () { w with tree, accesses := w.accesses ++ [.write path true] } := by
  rw [writeText, bind_of_ok (get_eq w)]
  simp only [h]
  rfl

theorem writeText_of_error {text : String} {fault : Fault}
    (h : w.tree.write path (Utf8.encode text) = .error fault) :
    writeText path text w = .error (.unwritable path fault)
      { w with accesses := w.accesses ++ [.write path false] } := by
  rw [writeText, bind_of_ok (get_eq w)]
  simp only [h]
  rfl

/-! ## Reading replies -/

theorem readLine_of_some {text : String} (h : Utf8.decode? (cutLine w.input).1 = some text) :
    readLine w = .ok text { w with input := (cutLine w.input).2 } := by
  rw [readLine, bind_of_ok (get_eq w)]
  simp only [h]
  rfl

theorem readLine_of_none (h : Utf8.decode? (cutLine w.input).1 = none) :
    readLine w = .error (.replying .notText) { w with input := (cutLine w.input).2 } := by
  rw [readLine, bind_of_ok (get_eq w)]
  simp only [h]
  rfl

end Action

end ConsoleSweep
