import ConsoleSweep.Proofs.Sweep.Action

/-!
# Two actions side by side

Two actions go abreast if they give the same result or fail alike, and leave worlds that are related
as the worlds were in which they started. What relates the worlds is up to the statement at hand:
that they differ only in files nobody looks at, say, or only in colours. Going abreast composes
(`Abreast.bind`), so a run is compared with another one part by part.

Most parts of a run go abreast for a simple reason: they are `Action.Unaware` of what differs.
-/

namespace ConsoleSweep

open ConsoleSweep.Action

namespace Action

/-! ## Actions that do not notice a change of the world -/

section Unaware

variable {ε α β : Type} {act : Action ε α} {next : α → Action ε β} {change : World → World}

/-- A result that leaves the world changed. -/
def mapWorld (change : World → World) : EStateM.Result ε World α → EStateM.Result ε World α
  | .ok a w => .ok a (change w)
  | .error e w => .error e (change w)

theorem ending_mapWorld (r : EStateM.Result ε World α) :
    ending (mapWorld change r) = change (ending r) := by
  cases r <;> rfl

theorem upshot_mapWorld (r : EStateM.Result ε World α) : upshot (mapWorld change r) = upshot r := by
  cases r <;> rfl

/-- An action that does not notice a change of the world: it goes the same way without it, and the
change is there in the end as it was in the beginning. -/
def Unaware (change : World → World) (act : Action ε α) : Prop :=
  ∀ w, act (change w) = mapWorld change (act w)

theorem unaware_pure (a : α) : Unaware change (pure a : Action ε α) := fun _ => rfl

theorem unaware_throw (e : ε) : Unaware change (throw e : Action ε α) := fun _ => rfl

theorem Unaware.bind (h : Unaware change act) (hnext : ∀ a, Unaware change (next a)) :
    Unaware change (act >>= next) := by
  intro w
  have hact := h w
  cases hw : act w with
  | ok a w' =>
    rw [hw] at hact
    rw [bind_of_ok hw, bind_of_ok hact]
    exact hnext a w'
  | error e w' =>
    rw [hw] at hact
    rw [bind_of_error hw, bind_of_error hact]
    rfl

theorem Unaware.within {ε' : Type} (h : Unaware change act) (context : ε → ε') :
    Unaware change (act.within context) := by
  intro w
  have hact := h w
  cases hw : act w with
  | ok a w' =>
    rw [hw] at hact
    rw [within_of_ok hw, within_of_ok hact]
    rfl
  | error e w' =>
    rw [hw] at hact
    rw [within_of_error hw, within_of_error hact]
    rfl

end Unaware

section Talk

variable {change : World → World}

/-- A report does not notice a change that has nothing to do with the sink. -/
theorem unaware_report (hsink : ∀ w, (change w).sink = w.sink)
    (hkeep : ∀ w sink, change { w with sink } = { change w with sink }) (text : String) :
    Unaware change (report text) := by
  intro w
  unfold report Action.write
  simp only [hsink]
  split
  · rw [← hkeep]
    rfl
  · rw [← hkeep]
    rfl

/-- Reading a reply does not notice a change that has nothing to do with the input. -/
theorem unaware_readLine (hinput : ∀ w, (change w).input = w.input)
    (hkeep : ∀ w input, change { w with input } = { change w with input }) :
    Unaware change readLine := by
  intro w
  cases hline : Utf8.decode? (cutLine w.input).1 with
  | none =>
    rw [readLine_of_none hline, readLine_of_none (w := change w) (by rwa [hinput]), hinput, ← hkeep]
    rfl
  | some text =>
    rw [readLine_of_some hline, readLine_of_some (w := change w) (by rwa [hinput]), hinput, ← hkeep]
    rfl

end Talk

end Action

/-! ## Going abreast -/

variable {ε ε' α β : Type} {R : World → World → Prop}

/-- Two results with the same value or the same failure, in related worlds. -/
inductive Abreast (R : World → World → Prop) :
    EStateM.Result ε World α → EStateM.Result ε World α → Prop where
  | ok {a : α} {w v : World} (h : R w v) : Abreast R (.ok a w) (.ok a v)
  | error {e : ε} {w v : World} (h : R w v) : Abreast R (.error e w) (.error e v)

namespace Abreast

variable {r r' : EStateM.Result ε World α} {act act' : Action ε α} {w v : World}

theorem upshot_eq (h : Abreast R r r') : upshot r = upshot r' := by
  cases h <;> rfl

theorem ending (h : Abreast R r r') : R (Action.ending r) (Action.ending r') := by
  cases h <;> assumption

/-- If worlds are only related when they are the same, so are the results. -/
theorem eq (h : Abreast R r r') (hR : ∀ w v, R w v → w = v) : r = r' := by
  cases h with
  | ok hwv => rw [hR _ _ hwv]
  | error hwv => rw [hR _ _ hwv]

/-- An action that does not notice a change goes abreast with itself in the changed world. -/
theorem of_unaware {change : World → World} (h : Unaware change act)
    (hends : R (Action.ending (act w)) (change (Action.ending (act w)))) :
    Abreast R (act w) (act (change w)) := by
  rw [h w]
  cases hact : act w with
  | ok a w' =>
    rw [hact] at hends
    exact .ok hends
  | error e w' =>
    rw [hact] at hends
    exact .error hends

/-- Sequences go abreast if their first parts do, and what follows does from the worlds these leave.
-/
theorem bind {next next' : α → Action ε β} (h : Abreast R (act w) (act' v))
    (hnext : ∀ a w' v', act w = .ok a w' → R w' v' → Abreast R (next a w') (next' a v')) :
    Abreast R ((act >>= next) w) ((act' >>= next') v) := by
  generalize hw : act w = r, hv : act' v = r' at h
  cases h with
  | ok hwv =>
    rw [bind_of_ok hw, bind_of_ok hv]
    exact hnext _ _ _ hw hwv
  | error hwv =>
    rw [bind_of_error hw, bind_of_error hv]
    exact .error hwv

theorem within (h : Abreast R (act w) (act' v)) (context : ε → ε') :
    Abreast R (act.within context w) (act'.within context v) := by
  generalize hw : act w = r, hv : act' v = r' at h
  cases h with
  | ok hwv =>
    rw [within_of_ok hw, within_of_ok hv]
    exact .ok hwv
  | error hwv =>
    rw [within_of_error hw, within_of_error hv]
    exact .error hwv

end Abreast

end ConsoleSweep
