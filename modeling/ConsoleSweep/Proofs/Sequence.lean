import Mathlib.Data.List.Zip

/-!
# Sequences

General facts about lists, and about results that are taken one after the other, of which the first
fault is the last.
-/

namespace ConsoleSweep

/-! ## Lists -/

/-- What two lists have in front does not matter to which is the smaller. -/
theorem lt_of_append_lt {α : Type} [LT α] [Std.Irrefl (α := α) (· < ·)] {front xs ys : List α}
    (h : front ++ xs < front ++ ys) : xs < ys := by
  induction front with
  | nil => exact h
  | cons first rest ih =>
    rcases List.cons_lt_cons_iff.mp h with hlt | ⟨-, hlt⟩
    · exact absurd hlt (Std.Irrefl.irrefl first)
    · exact ih hlt

/-- What stands in the first list after the end of the second one makes no difference. -/
theorem zipWith_take_left {α β γ : Type} (f : α → β → γ) {l : List α} {l' : List β} {i : ℕ}
    (h : l'.length ≤ i) : List.zipWith f (l.take i) l' = List.zipWith f l l' :=
  calc List.zipWith f (l.take i) l'
      = List.zipWith f (l.take i) (l'.take i) := by rw [List.take_of_length_le h]
    _ = (List.zipWith f l l').take i := List.take_zipWith.symm
    _ = List.zipWith f l l' := List.take_of_length_le (by rw [List.length_zipWith]; omega)

/-- The last thing that the elements of a list give, or what there was before. -/
theorem getLast?_filterMap_cons_or {α β : Type} (f : α → Option β) (a : α) (rest : List α)
    (before : Option β) : ((a :: rest).filterMap f).getLast?.or before =
      (rest.filterMap f).getLast?.or ((f a).or before) := by
  cases ha : f a with
  | none => rw [List.filterMap_cons_none ha, Option.none_or]
  | some b =>
    rw [List.filterMap_cons_some ha, List.getLast?_cons]
    cases (rest.filterMap f).getLast? <;> rfl

theorem foldl_max_le {numbers : List ℕ} {first bound : ℕ} (hfirst : first ≤ bound)
    (h : ∀ n ∈ numbers, n ≤ bound) : numbers.foldl max first ≤ bound := by
  induction numbers generalizing first with
  | nil => exact hfirst
  | cons n rest ih =>
    obtain ⟨hn, hrest⟩ := List.forall_mem_cons.mp h
    exact ih (Nat.max_le.mpr ⟨hfirst, hn⟩) hrest

/-! ## Results -/

/-- A sequence that succeeds has a first part that succeeds. -/
theorem exists_ok_of_bind {ε α β : Type} {first : Except ε α} {next : α → Except ε β} {b : β}
    (h : first >>= next = .ok b) : ∃ a, first = .ok a ∧ next a = .ok b := by
  cases first with
  | error e => cases h
  | ok a => exact ⟨a, rfl, h⟩

theorem mapError_ok {ε ε' α : Type} (blame : ε → ε') (a : α) :
    (Except.ok a : Except ε α).mapError blame = .ok a := rfl

theorem mapError_eq_ok_iff {ε ε' α : Type} {blame : ε → ε'} {result : Except ε α} {a : α} :
    result.mapError blame = .ok a ↔ result = .ok a := by
  cases result with
  | error e => exact ⟨nofun, nofun⟩
  | ok b => rw [mapError_ok, Except.ok.injEq, Except.ok.injEq]

/-- Mapping succeeds if it does so for every element, and then gives what `g` says. -/
theorem mapM_eq_ok_iff {ε α β : Type} {f : α → Except ε β} {g : α → β}
    (hg : ∀ a b, f a = .ok b → g a = b) {as : List α} {bs : List β} :
    as.mapM f = .ok bs ↔ (∀ a ∈ as, ∃ b, f a = .ok b) ∧ bs = as.map g := by
  induction as generalizing bs with
  | nil =>
    rw [List.mapM_nil, List.map_nil]
    constructor
    · intro h
      cases h
      exact ⟨nofun, rfl⟩
    · rintro ⟨-, rfl⟩
      rfl
  | cons a rest ih =>
    rw [List.mapM_cons, List.forall_mem_cons]
    cases hfirst : f a with
    | error e =>
      constructor
      · nofun
      · rintro ⟨⟨⟨b, hb⟩, -⟩, -⟩
        cases hb
    | ok first =>
      cases hrest : rest.mapM f with
      | error e =>
        constructor
        · nofun
        · rintro ⟨⟨-, hall⟩, -⟩
          cases hrest.symm.trans (ih.mpr ⟨hall, rfl⟩)
      | ok others =>
        obtain ⟨hall, rfl⟩ := ih.mp hrest
        rw [List.map_cons, hg a first hfirst]
        constructor
        · intro h
          cases h
          exact ⟨⟨⟨first, rfl⟩, hall⟩, rfl⟩
        · rintro ⟨-, rfl⟩
          rfl

end ConsoleSweep
