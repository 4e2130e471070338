import ConsoleSweep.Proofs.Statement.Gaps

/-!
# Where stripping joins a text to new statements

Stripping joins the gaps of a text. Where two of them meet is a seam, and a statement of the
stripped text whose call lies within one gap would have been found before. So every one of them
reaches across a seam (`crosses_of_stripped`), and stripping a second time changes nothing if none
does.

The blanks and the `;` after a call are left out of this: they belong to the statement, but do not
make one.
-/

namespace ConsoleSweep

namespace Split

/-- What stands between the statements of a cut text. -/
def gaps (s : Split) : List (List Char) := s.lead :: s.tail.map Prod.snd

/-- Where the first `j` gaps end once the statements have been taken out. -/
def seam (s : Split) (j : ℕ) : ℕ := (s.gaps.take j).flatten.length

theorem seam_one (lead : List Char) (tail : List (List Char × List Char)) :
    seam ⟨lead, tail⟩ 1 = lead.length := by
  simp [seam, gaps]

theorem seam_cons (lead statement gap : List Char) (rest : List (List Char × List Char)) (j : ℕ) :
    seam ⟨lead, (statement, gap) :: rest⟩ (j + 1) = lead.length + seam ⟨gap, rest⟩ j := by
  simp [seam, gaps]

/-- A part of what is kept that does not reach across a seam stands in the text too, and starts
outside of the statements. -/
theorem exists_place_of_uncrossed {i s : ℕ} {lead part : List Char}
    {tail : List (List Char × List Char)} (hpart : part <+: (Split.mk lead tail).kept.drop s)
    (huncrossed : ∀ j, 1 ≤ j → j ≤ tail.length →
      ¬ (s < seam ⟨lead, tail⟩ j ∧ seam ⟨lead, tail⟩ j < s + part.length)) :
    ∃ p, part <+: (Split.mk lead tail).whole.drop p ∧
      ∀ span ∈ placesFrom i lead tail, ¬ (span.1 ≤ i + p ∧ i + p < span.1 + span.2.length) := by
  induction tail generalizing i s lead with
  | nil => exact ⟨s, hpart, fun span hspan => nomatch hspan⟩
  | cons first rest ih =>
    obtain ⟨statement, gap⟩ := first
    have hkept : (Split.mk lead ((statement, gap) :: rest)).kept =
        lead ++ (Split.mk gap rest).kept := by
      simp [kept]
    have hwhole : (Split.mk lead ((statement, gap) :: rest)).whole =
        lead ++ (statement ++ (Split.mk gap rest).whole) := by
      simp [whole]
    rw [hkept] at hpart
    have hfirst := huncrossed 1 (Nat.le_refl 1) (by simp)
    rw [seam_one] at hfirst
    by_cases hbefore : s < lead.length
    · -- the part ends before the seam, so it lies in the first gap
      have hend : part.length ≤ (lead.drop s).length := by
        rw [List.length_drop]
        omega
      rw [List.drop_append_of_le_length (Nat.le_of_lt hbefore)] at hpart
      refine ⟨s, ?_, fun span hspan hin => ?_⟩
      · rw [hwhole, List.drop_append_of_le_length (Nat.le_of_lt hbefore)]
        exact (List.prefix_of_prefix_length_le hpart (List.prefix_append _ _) hend).trans
          (List.prefix_append _ _)
      · have hlater := le_of_mem_placesFrom hspan
        omega
    · -- the part starts behind the seam, so it lies in what follows the statement
      have hbehind : lead.length ≤ s := Nat.le_of_not_lt hbefore
      rw [List.drop_append, List.drop_eq_nil_of_le hbehind, List.nil_append] at hpart
      obtain ⟨p, hp, hoff⟩ := ih (i := i + lead.length + statement.length) hpart
        fun j hle hlt hin => by
          refine huncrossed (j + 1) (Nat.le_add_left 1 j) (Nat.succ_le_succ hlt) ?_
          rw [seam_cons]
          omega
      refine ⟨lead.length + (statement.length + p), ?_, fun span hspan hin => ?_⟩
      · rwa [hwhole, List.drop_length_add_append, List.drop_length_add_append]
      · rcases List.mem_cons.mp hspan with rfl | hspan
        · simp only at hin
          omega
        · refine hoff span hspan ?_
          omega

end Split

namespace Statement

/-- Where the `)` of a statement ends, from the start of the statement on. -/
def closing (statement : List Char) : ℕ := statement.idxOf ')' + 1

/-- A place and a statement there whose call reaches across a seam of a cut text. -/
def Crosses (cut : Split) (span : ℕ × List Char) : Prop :=
  ∃ j, 1 ≤ j ∧ j ≤ cut.tail.length ∧ span.1 < cut.seam j ∧ cut.seam j < span.1 + closing span.2

theorem Call.closing_append {call : List Char} (h : Call call) (rest : List Char) :
    closing (call ++ rest) = call.length := by
  obtain ⟨front, hfront, rfl⟩ := h.exists_front
  rw [closing, List.append_assoc, List.idxOf_append, if_neg hfront, List.singleton_append,
    List.idxOf_cons_self, List.length_append, List.length_singleton, Nat.zero_add]

/-- A call in what is kept of a text reaches across a seam. -/
theorem Cuts.exists_seam {text call : List Char} {cut : Split} (h : Cuts text cut)
    (hcall : Call call) {s : ℕ} (hthere : call <+: cut.kept.drop s) :
    ∃ j, 1 ≤ j ∧ j ≤ cut.tail.length ∧ s < cut.seam j ∧ cut.seam j < s + call.length := by
  by_contra hnone
  obtain ⟨p, hp, hoff⟩ := Split.exists_place_of_uncrossed (i := 0) hthere
    fun j hle hlt hin => hnone ⟨j, hle, hlt, hin⟩
  -- the call stands in the text as well, where the scanner has left none
  have hstarts : Starts (text.drop p) := ⟨call, hcall, h.whole ▸ hp⟩
  obtain ⟨span, hspan, hin⟩ := h.spans.covers (Nat.zero_le p) hstarts
  exact hoff span hspan (by simpa using hin)

/-- **New statements arise only across seams.** The call of a statement of the stripped text starts
before a place where a statement has been taken out of the text, and ends behind it. So stripping a
second time changes nothing if no statement of the stripped text reaches across a seam. -/
theorem crosses_of_stripped {text : String} {cut again : Split} (h : Cuts text.toList cut)
    (hagain : Cuts (stripped text).toList again) :
    (stripped text).toList = cut.kept ∧
      findAll (stripped text) = again.places.map (fun span => String.ofList span.2) ∧
      (∀ span ∈ again.places, Crosses cut span) ∧
      ((∀ span ∈ again.places, ¬ Crosses cut span) →
        strip (stripped text) = (stripped text, 0)) := by
  have hkept : (stripped text).toList = cut.kept := by
    rw [h.eq_split, stripped, strip, String.toList_ofList]
  have hfound : findAll (stripped text) =
      again.places.map fun span => String.ofList span.2 := by
    rw [findAll, ← hagain.eq_split, Split.statements,
      ← Split.map_snd_placesFrom 0 again.lead again.tail, List.map_map]
    rfl
  have hcrosses : ∀ span ∈ again.places, Crosses cut span := by
    intro span hspan
    obtain ⟨after, hafter, call, trail, hcall, -, hstatement⟩ := hagain.spans.leads hspan
    have hthere : call <+: cut.kept.drop span.1 := by
      rw [← hkept, hafter, hstatement, List.append_assoc]
      exact List.prefix_append _ _
    have hseam := h.exists_seam hcall hthere
    rwa [← hcall.closing_append trail, ← hstatement] at hseam
  refine ⟨hkept, hfound, hcrosses, fun hnone => ?_⟩
  have hnothing : again.places = [] :=
    List.eq_nil_iff_forall_not_mem.mpr fun span hspan => hnone span hspan (hcrosses span hspan)
  have hempty : findAll (stripped text) = [] := by
    rw [hfound, hnothing, List.map_nil]
  rw [strip_eq, stripped_of_findAll_eq_nil hempty, hempty, List.length_nil]

/-- A text with two statements in the midst of a third. -/
def nested : String := "consoconsole.log();console.info()le.log();"

/-- What it is made of. -/
def nestedCut : Split :=
  ⟨"conso".toList, [("console.log();".toList, []), ("console.info()".toList, "le.log();".toList)]⟩

/-- Both seams are within the statement that stripping leaves. -/
theorem crosses_of_stripped_nested : Cuts nested.toList nestedCut ∧
    findAll (stripped nested) = ["console.log();"] ∧
    Crosses nestedCut (0, "console.log();".toList) := by
  have hcut : Cuts nested.toList nestedCut := by
    rw [show nestedCut = split nested.toList by decide +kernel]
    exact cuts_split _
  have hagain : Cuts (stripped nested).toList ⟨[], [("console.log();".toList, [])]⟩ := by
    rw [show Split.mk [] [("console.log();".toList, [])] = split (stripped nested).toList by
      decide +kernel]
    exact cuts_split _
  obtain ⟨-, hfound, hcrosses, -⟩ := crosses_of_stripped hcut hagain
  exact ⟨hcut, hfound, hcrosses _ List.mem_cons_self⟩

end Statement

end ConsoleSweep
