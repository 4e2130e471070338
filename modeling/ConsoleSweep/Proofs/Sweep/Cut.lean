import Mathlib.Data.List.Infix
import ConsoleSweep.Proofs.Sweep.Action

/-!
# One action on two sinks

A sink with less room cuts an action off; it does not change it. `Cut` compares the results of one
action in two worlds that differ in the room of their sinks: the results are the same, or the
tighter sink has been filled up on the way, with what has been done so far a part of what is done in
the other world. `Action.Cuts` says that this holds of an action whatever the two sinks are, and
`Cuts.bind` that it holds of a sequence when it holds of the parts.

An action that does not look at the sink at all is `Action.Blind`. Only `report` writes to the sink,
so the parts of a run are either blind or a report.
-/

namespace ConsoleSweep

open ConsoleSweep.Action

/-! ## Sinks -/

namespace Sink

variable {s t : Sink}

/-- How many bytes a sink holds in all, if it has a limit. -/
def capacity (s : Sink) : Option Nat := s.room.map (s.written.length + ·)

theorem capacity_eq_none_iff : s.capacity = none ↔ s.room = none := by
  simp [capacity]

/-- Writing uses up room for what it keeps. -/
theorem capacity_write (s : Sink) (bytes : Bytes) : (s.write bytes).2.capacity = s.capacity := by
  unfold write
  cases hroom : s.room with
  | none => simp [capacity, hroom]
  | some room =>
    simp only [capacity, hroom, Option.map_some, List.length_append, List.length_take,
      Option.some.injEq]
    omega

/-- What has been written stays. -/
theorem prefix_write (s : Sink) (bytes : Bytes) : s.written <+: (s.write bytes).2.written := by
  unfold write
  cases s.room <;> exact List.prefix_append _ _

/-- One sink holds what another one holds, and has no more room. -/
structure Tighter (s t : Sink) : Prop where
  written : s.written = t.written
  room : ∀ n, t.room = some n → ∃ m, s.room = some m ∧ m ≤ n

/-- What fits into the tighter sink fits into the other one. -/
theorem Tighter.write (h : s.Tighter t) {bytes : Bytes} (hfits : (s.write bytes).1 = true) :
    (t.write bytes).1 = true ∧ (s.write bytes).2.Tighter (t.write bytes).2 := by
  have hwritten := written_write hfits
  cases ht : t.room with
  | none =>
    have hfits' := fits_of_room_eq_none ht bytes
    refine ⟨hfits', by rw [hwritten, written_write hfits', h.written], fun n hn => ?_⟩
    rw [(room_write t bytes).mpr ht] at hn
    cases hn
  | some n =>
    obtain ⟨m, hm, hle⟩ := h.room n ht
    have hlength : bytes.length ≤ m := by simpa [Sink.write, hm] using hfits
    have hfits' : (t.write bytes).1 = true := by
      simp only [Sink.write, ht, decide_eq_true_eq]
      omega
    refine ⟨hfits', by rw [hwritten, written_write hfits', h.written], fun k hk => ?_⟩
    have hk' : n - bytes.length = k := by simpa [Sink.write, ht] using hk
    refine ⟨m - bytes.length, by simp [Sink.write, hm], by omega⟩

/-- A sink that has been filled up holds the first bytes of what another one holds. -/
theorem Tighter.prefix_of_full (h : s.Tighter t) {bytes : Bytes}
    (hfull : (s.write bytes).1 = false) :
    (s.write bytes).2.written <+: (t.write bytes).2.written := by
  cases hs : s.room with
  | none =>
    rw [fits_of_room_eq_none hs] at hfull
    cases hfull
  | some m =>
    have hwritten : (s.write bytes).2.written = t.written ++ bytes.take m := by
      simp [Sink.write, hs, h.written]
    rw [hwritten]
    cases ht : t.room with
    | none =>
      have hall : (t.write bytes).2.written = t.written ++ bytes := by simp [Sink.write, ht]
      rw [hall]
      exact (List.prefix_append_right_inj _).mpr (List.take_prefix _ _)
    | some n =>
      obtain ⟨m', hm', hle⟩ := h.room n ht
      have hm : m = m' := Option.some.inj (hs.symm.trans hm')
      have hmore : (t.write bytes).2.written = t.written ++ bytes.take n := by simp [Sink.write, ht]
      rw [hmore]
      exact (List.prefix_append_right_inj _).mpr (List.take_prefix_take_left (by omega))

end Sink

/-! ## Worlds -/

namespace World

variable {w v u : World}

/-- Two worlds that differ in their sinks at most, the first of which is the tighter one. -/
structure Tighter (w v : World) : Prop where
  others : w = { v with sink := w.sink }
  sink : w.sink.Tighter v.sink

/-- What has been done to files and written to the sink in one world has been done and written in
another one too. -/
structure Before (w v : World) : Prop where
  accesses : w.accesses <+: v.accesses
  written : w.sink.written <+: v.sink.written

theorem Before.refl (w : World) : w.Before w := ⟨List.prefix_rfl, List.prefix_rfl⟩

theorem Before.trans (h : w.Before v) (h' : v.Before u) : w.Before u :=
  ⟨h.accesses.trans h'.accesses, h.written.trans h'.written⟩

theorem Tighter.before (h : w.Tighter v) : w.Before v := by
  refine ⟨?_, ?_⟩
  · rw [h.others]
  · rw [h.sink.written]

end World

/-- How the result of an action on a tighter sink compares with its result on another one: they are
the same, or the tighter sink has been filled up on the way. -/
inductive Cut {α : Type} :
    EStateM.Result Failure World α → EStateM.Result Failure World α → Prop where
  | ok {a : α} {w v : World} (h : w.Tighter v) : Cut (.ok a w) (.ok a v)
  | error {e : Failure} {w v : World} (h : w.Tighter v) : Cut (.error e w) (.error e v)
  | full {w : World} {r : EStateM.Result Failure World α} (hroom : w.sink.room = some 0)
      (hbefore : w.Before (ending r))
      (hmore : (ending r).sink.room = none →
        w.sink.written.length < (ending r).sink.written.length) : Cut (.error .sinkFull w) r

namespace Action

variable {ε α β : Type}

/-! ## Actions that do not look at the sink -/

/-- A result with another sink. -/
def onSink (sink : Sink) : EStateM.Result ε World α → EStateM.Result ε World α
  | .ok a w => .ok a { w with sink }
  | .error e w => .error e { w with sink }

/-- An action that does the same whatever the sink is, and leaves the sink as it is. -/
structure Blind (act : Action ε α) : Prop where
  sink : ∀ w sink, act { w with sink } = onSink sink (act w)
  accesses : ∀ w, w.accesses <+: (ending (act w)).accesses

theorem Blind.sink_eq {act : Action ε α} (h : Blind act) (w : World) :
    (ending (act w)).sink = w.sink := by
  have hsame : act w = onSink w.sink (act w) := h.sink w w.sink
  rw [hsame]
  cases act w <;> rfl

theorem blind_pure (a : α) : Blind (pure a : Action ε α) :=
  ⟨fun _ _ => rfl, fun _ => List.prefix_rfl⟩

theorem blind_logAll (records : List Log.Record) : Blind (logAll records : Action ε Unit) :=
  ⟨fun _ _ => rfl, fun _ => List.prefix_rfl⟩

theorem blind_log (level : Log.Level) (source : Log.Source) (text : String) :
    Blind (log level source text : Action ε Unit) := blind_logAll _

theorem blind_outside (change : FileTree → FileTree) : Blind (outside change : Action ε Unit) :=
  ⟨fun _ _ => rfl, fun _ => List.prefix_rfl⟩

theorem Blind.bind {act : Action ε α} {next : α → Action ε β} (h : Blind act)
    (hnext : ∀ a, Blind (next a)) : Blind (act >>= next) where
  sink w sink := by
    have hsink := h.sink w sink
    cases hact : act w with
    | ok a v =>
      rw [hact] at hsink
      rw [bind_of_ok hact, bind_of_ok hsink]
      exact (hnext a).sink v sink
    | error e v =>
      rw [hact] at hsink
      rw [bind_of_error hact, bind_of_error hsink]
      rfl
  accesses w := by
    have haccesses := h.accesses w
    cases hact : act w with
    | ok a v =>
      rw [hact] at haccesses
      rw [bind_of_ok hact]
      exact haccesses.trans ((hnext a).accesses v)
    | error e v =>
      rw [hact] at haccesses
      rw [bind_of_error hact]
      exact haccesses

theorem Blind.within {ε' : Type} {act : Action ε α} (h : Blind act) (context : ε → ε') :
    Blind (act.within context) where
  sink w sink := by
    have hsink := h.sink w sink
    cases hact : act w with
    | ok a v =>
      rw [hact] at hsink
      rw [within_of_ok hact, within_of_ok hsink]
      rfl
    | error e v =>
      rw [hact] at hsink
      rw [within_of_error hact, within_of_error hsink]
      rfl
  accesses w := by
    have haccesses := h.accesses w
    cases hact : act w with
    | ok a v =>
      rw [hact] at haccesses
      rw [within_of_ok hact]
      exact haccesses
    | error e v =>
      rw [hact] at haccesses
      rw [within_of_error hact]
      exact haccesses

theorem blind_readText (path : Path) : Blind (readText path) where
  sink w sink := by
    cases hread : w.tree.readText path with
    | ok text => rw [readText_of_ok hread, readText_of_ok (w := { w with sink }) hread]; rfl
    | error fault =>
      rw [readText_of_error hread, readText_of_error (w := { w with sink }) hread]
      rfl
  accesses w := by
    cases hread : w.tree.readText path with
    | ok text => rw [readText_of_ok hread]; exact List.prefix_append _ _
    | error fault => rw [readText_of_error hread]; exact List.prefix_append _ _

theorem blind_writeText (path : Path) (text : String) : Blind (writeText path text) where
  sink w sink := by
    cases hwrite : w.tree.write path (Utf8.encode text) with
    | ok tree => rw [writeText_of_ok hwrite, writeText_of_ok (w := { w with sink }) hwrite]; rfl
    | error fault =>
      rw [writeText_of_error hwrite, writeText_of_error (w := { w with sink }) hwrite]
      rfl
  accesses w := by
    cases hwrite : w.tree.write path (Utf8.encode text) with
    | ok tree => rw [writeText_of_ok hwrite]; exact List.prefix_append _ _
    | error fault => rw [writeText_of_error hwrite]; exact List.prefix_append _ _

theorem blind_readLine : Blind readLine where
  sink w sink := by
    show (readLine { w with sink }) = onSink sink (readLine w)
    cases hline : Utf8.decode? (cutLine w.input).1 with
    | none => rw [readLine_of_none hline, readLine_of_none (w := { w with sink }) hline]; rfl
    | some text => rw [readLine_of_some hline, readLine_of_some (w := { w with sink }) hline]; rfl
  accesses w := by
    cases hline : Utf8.decode? (cutLine w.input).1 with
    | none => rw [readLine_of_none hline]; exact List.prefix_rfl
    | some text => rw [readLine_of_some hline]; exact List.prefix_rfl

/-! ## Actions that report -/

/-- An action that only goes on with what has been done, and that a tighter sink cuts off at most.
-/
structure Cuts (act : Sweep α) : Prop where
  before : ∀ w : World, w.Before (ending (act w))
  capacity : ∀ w, (ending (act w)).sink.capacity = w.sink.capacity
  cut : ∀ {w v : World}, w.Tighter v → Cut (act w) (act v)

theorem Blind.cuts {act : Sweep α} (h : Blind act) : Cuts act where
  before w := ⟨h.accesses w, by rw [h.sink_eq]⟩
  capacity w := by rw [h.sink_eq]
  cut {w v} hwv := by
    have hsame : act w = onSink w.sink (act v) := by
      rw [← h.sink v w.sink, ← hwv.others]
    have hsink := h.sink_eq v
    rw [hsame]
    cases hact : act v with
    | ok a v' =>
      rw [hact] at hsink
      exact .ok ⟨rfl, by rw [show v'.sink = v.sink from hsink]; exact hwv.sink⟩
    | error e v' =>
      rw [hact] at hsink
      exact .error ⟨rfl, by rw [show v'.sink = v.sink from hsink]; exact hwv.sink⟩

/-- A part of the report goes to the sink, and nothing else is done. -/
theorem ending_report (text : String) (w : World) :
    ending (report text w) = { w with sink := (w.sink.write (Utf8.encode text)).2 } := by
  unfold report Action.write
  simp only
  split <;> rfl

theorem cuts_report (text : String) : Cuts (report text) where
  before w := by
    rw [ending_report]
    exact ⟨List.prefix_rfl, Sink.prefix_write _ _⟩
  capacity w := by
    rw [ending_report]
    exact Sink.capacity_write _ _
  cut {w v} hwv := by
    cases hfits : (w.sink.write (Utf8.encode text)).1 with
    | true =>
      -- the looser sink takes the text as well
      obtain ⟨hfits', htighter⟩ := hwv.sink.write hfits
      have hw : report text w = .ok () { w with sink := (w.sink.write (Utf8.encode text)).2 } := by
        simp [report, Action.write, hfits]
      have hv : report text v = .ok () { v with sink := (v.sink.write (Utf8.encode text)).2 } := by
        simp [report, Action.write, hfits']
      rw [hw, hv]
      refine .ok ⟨?_, htighter⟩
      rw [hwv.others]
    | false =>
      have hw : report text w =
          .error .sinkFull { w with sink := (w.sink.write (Utf8.encode text)).2 } := by
        simp [report, Action.write, hfits]
      obtain ⟨hroom, k, hk, hwritten⟩ := Sink.full_write hfits
      rw [hw]
      refine .full hroom ⟨?_, ?_⟩ fun hnone => ?_
      · rw [ending_report, hwv.others]
      · rw [ending_report]
        exact hwv.sink.prefix_of_full hfits
      · -- a sink without a limit takes the whole text, of which the tighter one keeps `k` bytes
        rw [ending_report] at hnone ⊢
        have hall := Sink.written_write
          (Sink.fits_of_room_eq_none ((Sink.room_write _ _).mp hnone) (Utf8.encode text))
        simp only [hall, hwritten, hwv.sink.written, List.length_append, List.length_take]
        omega

theorem cuts_throw (e : Failure) : Cuts (throw e : Sweep α) where
  before w := .refl w
  capacity _ := rfl
  cut hwv := .error hwv

theorem cuts_pure (a : α) : Cuts (pure a : Sweep α) := (blind_pure a).cuts

theorem Cuts.bind {act : Sweep α} {next : α → Sweep β} (h : Cuts act)
    (hnext : ∀ a, Cuts (next a)) : Cuts (act >>= next) where
  before w := by
    have hbefore := h.before w
    cases hact : act w with
    | ok a v =>
      rw [hact] at hbefore
      rw [bind_of_ok hact]
      exact hbefore.trans ((hnext a).before v)
    | error e v =>
      rw [hact] at hbefore
      rw [bind_of_error hact]
      exact hbefore
  capacity w := by
    have hcapacity := h.capacity w
    cases hact : act w with
    | ok a v =>
      rw [hact] at hcapacity
      rw [bind_of_ok hact]
      exact ((hnext a).capacity v).trans hcapacity
    | error e v =>
      rw [hact] at hcapacity
      rw [bind_of_error hact]
      exact hcapacity
  cut {w v} hwv := by
    have hcut := h.cut hwv
    cases hv : act v with
    | ok a v' =>
      rw [hv] at hcut
      rw [bind_of_ok hv]
      generalize hw : act w = r at hcut
      cases hcut with
      | ok hwv' =>
        rw [bind_of_ok hw]
        exact (hnext a).cut hwv'
      | full hroom hbefore hmore =>
        -- whatever the looser run does next comes after what the tighter one has done
        have hafter := (hnext a).before v'
        rw [bind_of_error hw]
        refine .full hroom (hbefore.trans hafter) fun hnone => ?_
        have hnone' : v'.sink.room = none := by
          rw [← Sink.capacity_eq_none_iff, ← (hnext a).capacity v', Sink.capacity_eq_none_iff]
          exact hnone
        exact Nat.lt_of_lt_of_le (hmore hnone') hafter.written.length_le
    | error e v' =>
      rw [hv] at hcut
      rw [bind_of_error hv]
      generalize hw : act w = r at hcut
      cases hcut with
      | error hwv' =>
        rw [bind_of_error hw]
        exact .error hwv'
      | full hroom hbefore hmore =>
        rw [bind_of_error hw]
        exact .full hroom hbefore hmore

end Action

end ConsoleSweep
