import Mathlib.Data.List.DropRight
import Mathlib.Data.List.TakeWhile
import ConsoleSweep.Text.Blank

/-!
# Trimming

What is left of a text when characters of a kind are dropped from its ends. `Trims` says it without
the order in which they are dropped, and `trims_iff` that this is what trimming leaves; so a text
may be put into such characters, or be trimmed again, and nothing comes of it.
-/

namespace ConsoleSweep

variable {p : Char → Bool} {text core : List Char}

/-! ## The right end -/

/-- Trimming keeps a first character that is not to be dropped. -/
theorem trimRight_cons {c : Char} (hc : p c = false) (cs : List Char) :
    trimRight p (c :: cs) = c :: trimRight p cs := by
  rw [trimRight, List.reverse_cons, List.dropWhile_append]
  split
  next hnil =>
    have hrest : trimRight p cs = [] := by
      rw [trimRight, List.isEmpty_iff.mp hnil, List.reverse_nil]
    rw [hrest, List.dropWhile_cons_of_neg (by simp [hc])]
    rfl
  next =>
    rw [List.reverse_append]
    rfl

/-- A text that does not end in a character to be dropped stays as it is. -/
theorem trimRight_of_getLast? (h : ∀ c, text.getLast? = some c → p c = false) :
    trimRight p text = text := by
  rcases List.eq_nil_or_concat text with rfl | ⟨front, c, rfl⟩
  · rfl
  · have hc : p c = false := h c (by simp)
    rw [trimRight, List.concat_eq_append, List.reverse_concat,
      List.dropWhile_cons_of_neg (by simp [hc]), List.reverse_cons, List.reverse_reverse]

theorem trimRight_eq_rdropWhile (p : Char → Bool) (text : List Char) :
    trimRight p text = text.rdropWhile p := rfl

/-! ## Both ends -/

theorem dropWhile_of_head? (h : ∀ c ∈ text.head?, p c = false) : text.dropWhile p = text := by
  cases text with
  | nil => rfl
  | cons c cs => exact List.dropWhile_cons_of_neg (by simp [h c rfl])

/-- What can be dropped around a word is dropped. -/
theorem trimEnds_append {lead word trail : List Char} (hlead : ∀ c ∈ lead, p c)
    (htrail : ∀ c ∈ trail, p c) (hfirst : ∀ c ∈ word.head?, p c = false)
    (hlast : ∀ c ∈ word.getLast?, p c = false) : trimEnds p (lead ++ word ++ trail) = word := by
  have hend : (word ++ trail).reverse.dropWhile p = word.reverse := by
    rw [List.reverse_append, List.dropWhile_append_of_pos (by simpa using htrail),
      dropWhile_of_head? (by rwa [List.head?_reverse])]
  rw [trimEnds, List.append_assoc, List.dropWhile_append_of_pos hlead]
  cases word with
  | nil =>
    have hnone : trail.dropWhile p = [] := List.dropWhile_eq_nil_iff.mpr htrail
    rw [List.nil_append, hnone]
    rfl
  | cons c cs =>
    rw [List.cons_append, List.dropWhile_cons_of_neg (by simp [hfirst c rfl]),
      ← List.cons_append, hend, List.reverse_reverse]

/-- Trimming drops something from both ends. -/
theorem exists_trimEnds (p : Char → Bool) (text : List Char) :
    ∃ lead trail, text = lead ++ trimEnds p text ++ trail ∧ (∀ c ∈ lead, p c) ∧
      ∀ c ∈ trail, p c := by
  refine ⟨text.takeWhile p, ((text.dropWhile p).reverse.takeWhile p).reverse, ?_,
    fun c => List.mem_takeWhile_imp, fun c hc => List.mem_takeWhile_imp (List.mem_reverse.mp hc)⟩
  rw [trimEnds, List.append_assoc, ← List.reverse_append, List.takeWhile_append_dropWhile,
    List.reverse_reverse, List.takeWhile_append_dropWhile]

/-- What is left of a text when the characters satisfying `p` are dropped from both ends. -/
structure Trims (p : Char → Bool) (text core : List Char) : Prop where
  cut : ∃ lead trail, text = lead ++ core ++ trail ∧ (∀ c ∈ lead, p c) ∧ ∀ c ∈ trail, p c
  first : ∀ c ∈ core.head?, p c = false
  last : ∀ c ∈ core.getLast?, p c = false

theorem trims_trimEnds (p : Char → Bool) (text : List Char) :
    Trims p text (trimEnds p text) where
  cut := exists_trimEnds p text
  first := by
    intro c hc
    have hstart : trimEnds p text <+: text.dropWhile p := by
      rw [trimEnds, ← List.reverse_suffix, List.reverse_reverse]
      exact List.dropWhile_suffix _
    have hhead := List.head?_dropWhile_not p text
    obtain ⟨rest, hrest⟩ := hstart
    rwa [← hrest, List.head?_append, Option.mem_def.mp hc] at hhead
  last := by
    intro c hc
    rw [trimEnds, List.getLast?_reverse] at hc
    have hhead := List.head?_dropWhile_not p (text.dropWhile p).reverse
    rwa [Option.mem_def.mp hc] at hhead

theorem forall_mem_head?_append {q : Char → Prop} {cs ds : List Char} (hcs : ∀ c ∈ cs.head?, q c)
    (hds : ∀ c ∈ ds.head?, q c) : ∀ c ∈ (cs ++ ds).head?, q c := by
  cases cs with
  | nil => exact hds
  | cons c cs => exact hcs

theorem forall_mem_getLast?_append {q : Char → Prop} {cs ds : List Char}
    (hcs : ∀ c ∈ cs.getLast?, q c) (hds : ∀ c ∈ ds.getLast?, q c) :
    ∀ c ∈ (cs ++ ds).getLast?, q c := by
  simp only [← List.head?_reverse, List.reverse_append] at hcs hds ⊢
  exact forall_mem_head?_append hds hcs

namespace Trims

theorem eq (h : Trims p text core) : trimEnds p text = core := by
  obtain ⟨lead, trail, rfl, hlead, htrail⟩ := h.cut
  exact trimEnds_append hlead htrail h.first h.last

/-- More of the same kind at the ends makes no difference. -/
theorem extend (h : Trims p text core) {lead trail : List Char} (hlead : ∀ c ∈ lead, p c)
    (htrail : ∀ c ∈ trail, p c) : Trims p (lead ++ text ++ trail) core where
  cut := by
    obtain ⟨front, back, rfl, hfront, hback⟩ := h.cut
    refine ⟨lead ++ front, back ++ trail, by simp only [List.append_assoc], ?_, ?_⟩
    · exact List.forall_mem_append.mpr ⟨hlead, hfront⟩
    · exact List.forall_mem_append.mpr ⟨hback, htrail⟩
  first := h.first
  last := h.last

end Trims

theorem trims_iff : Trims p text core ↔ trimEnds p text = core :=
  ⟨Trims.eq, fun h => h ▸ trims_trimEnds p text⟩

/-- A text stays as it is if nothing is to be dropped from its ends. -/
theorem trimEnds_eq_self (hfirst : ∀ c ∈ text.head?, p c = false)
    (hlast : ∀ c ∈ text.getLast?, p c = false) : trimEnds p text = text :=
  Trims.eq ⟨⟨[], [], by simp, by simp, by simp⟩, hfirst, hlast⟩

end ConsoleSweep
