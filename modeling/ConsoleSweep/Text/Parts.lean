/-!
# Parts of a list

Cutting a list at a separator: once, or at every occurrence.
-/

namespace ConsoleSweep

variable {α : Type} [DecidableEq α]

/-- The elements before the first occurrence of `sep` and, if there is one, those after it. -/
def cutAt (sep : α) : List α → List α × Option (List α)
  | [] => ([], none)
  | a :: rest =>
    if a = sep then ([], some rest)
    else
      let (before, after) := cutAt sep rest
      (a :: before, after)

/-- Cuts a list at every occurrence of `sep`. The result has one part more than there are
occurrences. -/
def partsAt (sep : α) : List α → List (List α)
  | [] => [[]]
  | a :: rest =>
    match partsAt sep rest with
    | [] => [[a]]
    | part :: parts => if a = sep then [] :: part :: parts else (a :: part) :: parts

theorem partsAt_ne_nil (sep : α) (as : List α) : partsAt sep as ≠ [] := by
  cases as with
  | nil => simp [partsAt]
  | cons a rest =>
    rw [partsAt]
    split
    · simp
    · split <;> simp

/-- No part of a list holds the separator. -/
theorem not_mem_of_mem_partsAt {sep : α} {as part : List α} (h : part ∈ partsAt sep as) :
    sep ∉ part := by
  induction as generalizing part with
  | nil =>
    rw [partsAt, List.mem_singleton] at h
    rw [h]
    exact List.not_mem_nil
  | cons a rest ih =>
    rw [partsAt] at h
    split at h
    next hparts => exact absurd hparts (partsAt_ne_nil sep rest)
    next first parts hparts =>
      rw [hparts] at ih
      split at h
      next ha =>
        rcases List.mem_cons.mp h with rfl | h
        · exact List.not_mem_nil
        · exact ih h
      next ha =>
        rcases List.mem_cons.mp h with rfl | h
        · rw [List.mem_cons, not_or]
          exact ⟨Ne.symm ha, ih List.mem_cons_self⟩
        · exact ih (List.mem_cons_of_mem _ h)

end ConsoleSweep
