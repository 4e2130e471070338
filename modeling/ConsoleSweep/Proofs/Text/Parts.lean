import Mathlib.Data.List.Infix
import ConsoleSweep.Text.Parts

/-!
# Parts and what they are joined to

Cutting a list at every separator is the library's `splitOn` (`partsAt_eq_splitOn`), so its laws are
those of the library. What is added is where parts stand in a list: the parts of one list are the
last parts of another if it ends that where a part starts (`suffix_partsAt_iff`), and parts stand
before the last one if they are the last parts before a separator (`infix_dropLast_partsAt_iff`).
-/

namespace ConsoleSweep

variable {α : Type} [DecidableEq α] {sep : α}

theorem cutAt_append_cons {before : List α} (h : sep ∉ before) (after : List α) :
    cutAt sep (before ++ sep :: after) = (before, some after) := by
  induction before with
  | nil => simp [cutAt]
  | cons a before ih =>
    rw [List.mem_cons, not_or] at h
    rw [List.cons_append, cutAt, if_neg (Ne.symm h.1), ih h.2]

theorem partsAt_eq_splitOn (sep : α) (as : List α) : partsAt sep as = as.splitOn sep := by
  induction as with
  | nil => rfl
  | cons a rest ih =>
    rw [List.splitOn_cons_eq_if_modifyHead, partsAt, ih]
    cases hparts : rest.splitOn sep with
    | nil => exact absurd hparts (List.splitOn_ne_nil sep rest)
    | cons part parts => simp

/-- There is one part more than there are separators. -/
theorem length_partsAt (sep : α) (as : List α) :
    (partsAt sep as).length = as.count sep + 1 := by
  induction as with
  | nil => rfl
  | cons a rest ih =>
    rw [partsAt, List.count_cons]
    split
    next hparts => exact absurd hparts (partsAt_ne_nil sep rest)
    next first parts hparts =>
      rw [hparts, List.length_cons] at ih
      by_cases ha : a = sep
      · simp [ha, ih]
      · simp [ha, ih]

theorem partsAt_append_cons (before after : List α) :
    partsAt sep (before ++ sep :: after) = partsAt sep before ++ partsAt sep after := by
  simp only [partsAt_eq_splitOn, List.splitOn_append_cons_self]

theorem partsAt_intercalate {parts : List (List α)} (hne : parts ≠ [])
    (hparts : ∀ part ∈ parts, sep ∉ part) : partsAt sep ([sep].intercalate parts) = parts := by
  rw [partsAt_eq_splitOn, List.splitOn_intercalate sep hparts hne]

theorem intercalate_partsAt (as : List α) : [sep].intercalate (partsAt sep as) = as := by
  rw [partsAt_eq_splitOn, List.intercalate_splitOn]

omit [DecidableEq α] in
theorem intercalate_append {before after : List (List α)} (hbefore : before ≠ [])
    (hafter : after ≠ []) : [sep].intercalate (before ++ after) =
      [sep].intercalate before ++ sep :: [sep].intercalate after := by
  induction before with
  | nil => exact absurd rfl hbefore
  | cons part rest ih =>
    by_cases hrest : rest = []
    · rw [hrest, List.singleton_append, List.intercalate_cons_of_ne_nil hafter,
        List.intercalate_singleton, List.append_assoc, List.singleton_append]
    · have hboth : rest ++ after ≠ [] := List.append_ne_nil_of_left_ne_nil hrest after
      rw [List.cons_append, List.intercalate_cons_of_ne_nil hboth, ih hrest,
        List.intercalate_cons_of_ne_nil hrest, List.append_assoc (part ++ [sep])]

/-! ## Where parts stand -/

/-- What stands before a part: nothing, or something that ends in a separator. -/
def Opens (sep : α) (before : List α) : Prop := before = [] ∨ ∃ front, before = front ++ [sep]

variable {parts : List (List α)} {as : List α}

/-- The parts of one list are the last ones of another if it ends that where a part starts. -/
theorem suffix_partsAt_iff {bs : List α} : partsAt sep bs <:+ partsAt sep as ↔
    ∃ before, Opens sep before ∧ as = before ++ bs := by
  constructor
  · rintro ⟨front, hfront⟩
    have hjoin : as = [sep].intercalate (front ++ partsAt sep bs) := by
      rw [hfront, intercalate_partsAt]
    by_cases hnil : front = []
    · rw [hnil, List.nil_append, intercalate_partsAt] at hjoin
      exact ⟨[], .inl rfl, hjoin⟩
    · refine ⟨[sep].intercalate front ++ [sep], .inr ⟨_, rfl⟩, ?_⟩
      rw [hjoin, intercalate_append hnil (partsAt_ne_nil sep bs), intercalate_partsAt,
        List.append_assoc, List.singleton_append]
  · rintro ⟨before, rfl | ⟨front, rfl⟩, rfl⟩
    · exact List.suffix_refl _
    · rw [List.append_assoc, List.singleton_append, partsAt_append_cons]
      exact List.suffix_append _ _

omit [DecidableEq α] in
/-- The last part of a list holds no separator, and a part starts there. -/
theorem exists_opens_append (sep : α) (as : List α) :
    ∃ before last, Opens sep before ∧ sep ∉ last ∧ as = before ++ last := by
  induction as with
  | nil => exact ⟨[], [], .inl rfl, List.not_mem_nil, rfl⟩
  | cons a rest ih =>
    obtain ⟨before, last, hopens, hlast, rfl⟩ := ih
    rcases hopens with rfl | ⟨front, rfl⟩
    · by_cases ha : sep = a
      · exact ⟨[a], last, .inr ⟨[], by rw [ha]; rfl⟩, hlast, rfl⟩
      · exact ⟨[], a :: last, .inl rfl, by simp [ha, hlast], rfl⟩
    · exact ⟨a :: (front ++ [sep]), last, .inr ⟨a :: front, rfl⟩, hlast, rfl⟩

/-- Parts stand before the last part of a list if they are the last ones before a separator. -/
theorem infix_dropLast_partsAt_iff (hne : parts ≠ []) :
    parts <:+: (partsAt sep as).dropLast ↔
      ∃ before after, as = before ++ sep :: after ∧ parts <:+ partsAt sep before := by
  constructor
  · rintro ⟨front, rest, hrest⟩
    obtain ⟨last, hlast⟩ : ∃ last, partsAt sep as = (front ++ parts) ++ (rest ++ [last]) := by
      refine ⟨(partsAt sep as).getLast (partsAt_ne_nil sep as), ?_⟩
      conv_lhs => rw [← List.dropLast_append_getLast (partsAt_ne_nil sep as), ← hrest]
      rw [List.append_assoc]
    have hfront : ∀ part ∈ front ++ parts, sep ∉ part := fun part hpart =>
      not_mem_of_mem_partsAt (hlast ▸ List.mem_append_left _ hpart : part ∈ partsAt sep as)
    have hsome : front ++ parts ≠ [] := List.append_ne_nil_of_right_ne_nil front hne
    refine ⟨[sep].intercalate (front ++ parts), [sep].intercalate (rest ++ [last]), ?_, ?_⟩
    · rw [← intercalate_append hsome (by simp), ← hlast, intercalate_partsAt]
    · rw [partsAt_intercalate hsome hfront]
      exact List.suffix_append _ _
  · rintro ⟨before, after, rfl, front, hfront⟩
    rw [partsAt_append_cons, ← hfront, List.dropLast_append_of_ne_nil (partsAt_ne_nil sep after)]
    exact ⟨front, _, rfl⟩

end ConsoleSweep
