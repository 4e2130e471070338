import ConsoleSweep.Glob.Matching

/-!
# Marks decide what an expression describes

Marks are moved across an expression in one pass over the text for each of its parts, and
`accepts_iff` says that what they decide is `Expr.Matches`. A mark stands after some bytes of the
text, so the invariant is about a way to cut the text (`marked_advance`): after an expression there
is a mark behind `q` just if `q` goes on from a place marked before it with something that the
expression describes. It is proved by induction on the expression; for runs of bytes, which carry a
mark along, by induction on the bytes passed.
-/

namespace ConsoleSweep.Glob

namespace Expr

/-- There is a mark behind some bytes at the start of the text. -/
def Marked (marks : List Bool) (q : Bytes) : Prop := marks[q.length]? = some true

theorem marked_nil {mark : Bool} {marks : List Bool} : Marked (mark :: marks) [] ↔ mark = true := by
  simp [Marked]

theorem marked_cons {mark : Bool} {marks : List Bool} {b : UInt8} {q : Bytes} :
    Marked (mark :: marks) (b :: q) ↔ Marked marks q := by
  simp [Marked]

/-! ## As many marks as before -/

theorem length_spread {member : UInt8 → Bool} {carried : Bool} {text : Bytes} {marks : List Bool}
    (h : marks.length = text.length + 1) :
    (spread member carried text marks).length = text.length + 1 := by
  induction text generalizing carried marks with
  | nil =>
    obtain ⟨mark, rfl⟩ := List.length_eq_one_iff.mp h
    rfl
  | cons b rest ih =>
    cases marks with
    | nil => cases h
    | cons mark marks =>
      rw [spread, List.length_cons, ih (Nat.succ.inj h), List.length_cons]

theorem length_advance {text : Bytes} {marks : List Bool} (h : marks.length = text.length + 1)
    (e : Expr) : (advance text e marks).length = text.length + 1 := by
  induction e generalizing marks with
  | nothing => exact h
  | byte member => simp [advance, shift, h]
  | bytes member => exact length_spread h
  | seq first second ihf ihs => exact ihs (ihf h)
  | either left right ihl ihr => simp [advance, ihl h, ihr h]

/-! ## Where the marks are -/

section Marks

variable {text q v : Bytes} {marks : List Bool}

/-- A mark moves over one byte of the set. -/
theorem marked_shift {member : UInt8 → Bool} (htext : text = q ++ v)
    (hlength : marks.length = text.length + 1) : Marked (shift member text marks) q ↔
      ∃ p u, q = p ++ u ∧ Marked marks p ∧ (byte member).Matches u := by
  rcases List.eq_nil_or_concat q with rfl | ⟨p, b, rfl⟩
  · rw [shift, marked_nil]
    constructor
    · nofun
    · rintro ⟨p, u, hsplit, -, b, -, rfl⟩
      simp at hsplit
  · have hbyte : text[p.length]? = some b := by
      rw [htext]
      simp
    obtain ⟨mark, hmark⟩ : ∃ mark, marks[p.length]? = some mark := by
      have hlt : p.length < marks.length := by
        rw [hlength, htext, List.concat_eq_append]
        simp only [List.length_append]
        omega
      exact ⟨_, List.getElem?_eq_getElem hlt⟩
    have hmoved : Marked (shift member text marks) (p ++ [b]) ↔ mark = true ∧ member b = true := by
      simp [Marked, shift, List.getElem?_zipWith, hbyte, hmark]
    rw [List.concat_eq_append, hmoved]
    constructor
    · rintro ⟨rfl, hb⟩
      exact ⟨p, [b], rfl, hmark, b, hb, rfl⟩
    · rintro ⟨p', u, hsplit, hmark', b', hb, rfl⟩
      obtain ⟨rfl, hlast⟩ := List.append_inj' hsplit rfl
      cases hlast
      rw [Marked, hmark] at hmark'
      cases hmark'
      exact ⟨rfl, hb⟩

theorem marked_spread_nil {member : UInt8 → Bool} {carried : Bool}
    (hlength : marks.length = text.length + 1) :
    Marked (spread member carried text marks) [] ↔ carried = true ∨ Marked marks [] := by
  cases marks with
  | nil => cases hlength
  | cons mark marks =>
    have hfirst : ∃ others,
        spread member carried text (mark :: marks) = (carried || mark) :: others := by
      cases text with
      | nil => exact ⟨_, rfl⟩
      | cons b rest => exact ⟨_, rfl⟩
    obtain ⟨others, hothers⟩ := hfirst
    rw [hothers, marked_nil, marked_nil, Bool.or_eq_true]

/-- A mark moves over any number of bytes of the set, and so does the one carried along. -/
theorem marked_spread {member : UInt8 → Bool} {carried : Bool} (htext : text = q ++ v)
    (hlength : marks.length = text.length + 1) : Marked (spread member carried text marks) q ↔
      (carried = true ∧ (bytes member).Matches q) ∨
        ∃ p u, q = p ++ u ∧ Marked marks p ∧ (bytes member).Matches u := by
  have hnone : (bytes member).Matches [] := fun b hb => nomatch hb
  induction q generalizing text carried marks with
  | nil =>
    rw [marked_spread_nil hlength]
    refine or_congr (and_iff_left hnone).symm ?_
    constructor
    · exact fun hmark => ⟨[], [], rfl, hmark, hnone⟩
    · rintro ⟨p, u, hsplit, hmark, -⟩
      obtain ⟨rfl, rfl⟩ := List.append_eq_nil_iff.mp hsplit.symm
      exact hmark
  | cons b q ih =>
    subst htext
    cases marks with
    | nil => cases hlength
    | cons mark marks =>
      rw [List.cons_append, spread, marked_cons]
      refine (ih rfl (Nat.succ.inj hlength)).trans ?_
      simp only [Bool.and_eq_true, Bool.or_eq_true]
      constructor
      · rintro (⟨⟨hcarried | hmark, hb⟩, hq⟩ | ⟨p, u, rfl, hmark, hu⟩)
        · exact .inl ⟨hcarried, List.forall_mem_cons.mpr ⟨hb, hq⟩⟩
        · exact .inr ⟨[], b :: q, rfl, marked_nil.mpr hmark, List.forall_mem_cons.mpr ⟨hb, hq⟩⟩
        · exact .inr ⟨b :: p, u, rfl, marked_cons.mpr hmark, hu⟩
      · rintro (⟨hcarried, hbq⟩ | ⟨p, u, hsplit, hmark, hu⟩)
        · obtain ⟨hb, hq⟩ := List.forall_mem_cons.mp hbq
          exact .inl ⟨⟨.inl hcarried, hb⟩, hq⟩
        · cases p with
          | nil =>
            cases hsplit
            obtain ⟨hb, hq⟩ := List.forall_mem_cons.mp hu
            exact .inl ⟨⟨.inr (marked_nil.mp hmark), hb⟩, hq⟩
          | cons a p =>
            cases hsplit
            exact .inr ⟨p, u, rfl, marked_cons.mp hmark, hu⟩

/-- **Marks move over what an expression describes.** -/
theorem marked_advance (e : Expr) (htext : text = q ++ v)
    (hlength : marks.length = text.length + 1) : Marked (advance text e marks) q ↔
      ∃ p u, q = p ++ u ∧ Marked marks p ∧ e.Matches u := by
  induction e generalizing marks q v with
  | nothing =>
    constructor
    · intro hmark
      exact ⟨q, [], by simp, hmark, rfl⟩
    · rintro ⟨p, u, rfl, hmark, rfl⟩
      rw [List.append_nil]
      exact hmark
  | byte member => exact marked_shift htext hlength
  | bytes member =>
    rw [advance, marked_spread htext hlength]
    simp
  | seq first second ihf ihs =>
    rw [advance, ihs htext (length_advance hlength first)]
    constructor
    · rintro ⟨p', w, rfl, hmark, hw⟩
      rw [ihf (htext.trans (List.append_assoc ..)) hlength] at hmark
      obtain ⟨p, u, rfl, hmark, hu⟩ := hmark
      exact ⟨p, u ++ w, List.append_assoc .., hmark, u, w, rfl, hu, hw⟩
    · rintro ⟨p, _, rfl, hmark, u, w, rfl, hu, hw⟩
      refine ⟨p ++ u, w, (List.append_assoc ..).symm, ?_, hw⟩
      rw [ihf (v := w ++ v) (by simp [htext]) hlength]
      exact ⟨p, u, rfl, hmark, hu⟩
  | either left right ihl ihr =>
    have hor : Marked (advance text (either left right) marks) q ↔
        Marked (advance text left marks) q ∨ Marked (advance text right marks) q := by
      have hlt : q.length < text.length + 1 := by
        rw [htext, List.length_append]
        omega
      have hl : q.length < (advance text left marks).length := by
        rwa [length_advance hlength]
      have hr : q.length < (advance text right marks).length := by
        rwa [length_advance hlength]
      simp [Marked, advance, List.getElem?_zipWith, List.getElem?_eq_getElem hl,
        List.getElem?_eq_getElem hr]
    rw [hor, ihl htext hlength, ihr htext hlength]
    constructor
    · rintro (⟨p, u, hsplit, hmark, hu⟩ | ⟨p, u, hsplit, hmark, hu⟩)
      · exact ⟨p, u, hsplit, hmark, .inl hu⟩
      · exact ⟨p, u, hsplit, hmark, .inr hu⟩
    · rintro ⟨p, u, hsplit, hmark, hu | hu⟩
      · exact .inl ⟨p, u, hsplit, hmark, hu⟩
      · exact .inr ⟨p, u, hsplit, hmark, hu⟩

end Marks

/-- **An expression accepts just what it describes.** -/
theorem accepts_iff (e : Expr) (text : Bytes) : e.accepts text = true ↔ e.Matches text := by
  have hlength : (true :: text.map fun _ => false).length = text.length + 1 := by simp
  have hlast : e.accepts text = true ↔
      Marked (advance text e (true :: text.map fun _ => false)) text := by
    rw [accepts, beq_iff_eq, List.getLast?_eq_getElem?, length_advance hlength]
    rfl
  rw [hlast, marked_advance e (List.append_nil text).symm hlength]
  constructor
  · rintro ⟨p, u, rfl, hmark, hu⟩
    cases p with
    | nil => exact hu
    | cons b p =>
      -- only the start of the text is marked at first
      have hmem := List.mem_of_getElem? (marked_cons.mp hmark)
      simp at hmem
  · exact fun h => ⟨[], text, rfl, marked_nil.mpr rfl, h⟩

end Expr

end ConsoleSweep.Glob
