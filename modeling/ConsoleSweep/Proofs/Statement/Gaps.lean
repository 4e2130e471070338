import ConsoleSweep.Proofs.Statement.Grammar
import ConsoleSweep.Proofs.Statement.Strip

/-!
# One decomposition behind finding and stripping

A text is cut at its statements if it is made of gaps and statements in turn and the statements
stand where the grammar says (`Cuts`). There is one such cut (`Cuts.unique`), and `split` is it
(`cuts_split`), so finding reads off its statements and stripping puts its gaps together.

A statement has one `)`, which closes its call (`Leads.count`), so stripping takes just as many away
as there are statements.
-/

namespace ConsoleSweep

namespace Split

/-- No statement starts before the first gap ends. -/
theorem le_of_mem_placesFrom {i : ℕ} {lead : List Char} {tail : List (List Char × List Char)}
    {span : ℕ × List Char} (h : span ∈ placesFrom i lead tail) : i + lead.length ≤ span.1 := by
  induction tail generalizing i lead with
  | nil => cases h
  | cons first rest ih =>
    rcases List.mem_cons.mp h with rfl | h
    · exact Nat.le_refl _
    · have hlater := ih h
      omega

end Split

namespace Statement

/-! ## The cut of a text -/

/-- A text cut at its statements: it is the gaps and the statements in turn, and the statements
stand where the grammar says. -/
structure Cuts (text : List Char) (cut : Split) : Prop where
  whole : cut.whole = text
  spans : Spans text 0 cut.places

theorem cuts_split (text : List Char) : Cuts text (split text) where
  whole := whole_split text
  spans := by
    have hspans := spans_split text 0
    rwa [List.drop_zero] at hspans

/-- Gaps and statements in turn are settled by the text and the places of the statements. -/
theorem eq_of_placesFrom {i : ℕ} {lead lead' : List Char}
    {tail tail' : List (List Char × List Char)}
    (hwhole : (Split.mk lead tail).whole = (Split.mk lead' tail').whole)
    (hplaces : Split.placesFrom i lead tail = Split.placesFrom i lead' tail') :
    Split.mk lead tail = Split.mk lead' tail' := by
  induction tail generalizing i lead lead' tail' with
  | nil =>
    cases tail' with
    | nil =>
      have hlead : lead = lead' := by simpa [Split.whole] using hwhole
      rw [hlead]
    | cons => cases hplaces
  | cons first rest ih =>
    cases tail' with
    | nil => cases hplaces
    | cons first' rest' =>
      obtain ⟨statement, gap⟩ := first
      obtain ⟨statement', gap'⟩ := first'
      obtain ⟨hfirst, hrest⟩ := List.cons_eq_cons.mp hplaces
      obtain ⟨hplace, rfl⟩ := Prod.mk.inj hfirst
      have hlength : lead.length = lead'.length := Nat.add_left_cancel hplace
      simp only [Split.whole, List.flatMap_cons, List.append_assoc] at hwhole
      obtain ⟨rfl, hrejoined⟩ := List.append_inj hwhole hlength
      have hlater : (Split.mk gap rest).whole = (Split.mk gap' rest').whole :=
        List.append_cancel_left hrejoined
      have hsame := ih hlater hrest
      obtain ⟨rfl, rfl⟩ := Split.mk.inj hsame
      rfl

/-- A text is cut in one way. -/
theorem Cuts.unique {text : List Char} {cut cut' : Split} (h : Cuts text cut)
    (h' : Cuts text cut') : cut = cut' :=
  eq_of_placesFrom (h.whole.trans h'.whole.symm) (h.spans.unique h'.spans)

theorem Cuts.eq_split {text : List Char} {cut : Split} (h : Cuts text cut) : cut = split text :=
  h.unique (cuts_split text)

/-! ## One statement -/

/-- Each of the statements leads what is left of the text at its place. -/
theorem Spans.leads {text : List Char} {i : ℕ} {spans : List (ℕ × List Char)}
    (h : Spans text i spans) {span : ℕ × List Char} (hspan : span ∈ spans) :
    ∃ after, text.drop span.1 = span.2 ++ after ∧ Leads span.2 after := by
  induction h with
  | done => cases hspan
  | next _ _ htext hleads _ ih =>
    rcases List.mem_cons.mp hspan with rfl | hspan
    · exact ⟨_, htext, hleads⟩
    · exact ih hspan

/-- A `)` is no blank. -/
theorem closing_notMem_blanks {blanks : List Char} (h : Blanks blanks) : ')' ∉ blanks :=
  fun hmem => absurd (h ')' hmem) (by decide)

/-- A call ends at its first `)`. -/
theorem Call.exists_front {call : List Char} (h : Call call) :
    ∃ front, ')' ∉ front ∧ call = front ++ [')'] := by
  cases h with
  | @intro method blanks arguments hmethod hblanks harguments =>
    have hname : ∀ method ∈ ["log", "debug", "info", "warn", "error"],
        ')' ∉ "console.".toList ++ method.toList := by
      decide
    refine ⟨_, ?_, rfl⟩
    simp only [List.mem_append, not_or] at hname ⊢
    exact ⟨⟨⟨hname method hmethod, closing_notMem_blanks hblanks⟩, by decide⟩, harguments⟩

theorem Trail.closing_notMem {trail after : List Char} (h : Trail trail after) : ')' ∉ trail := by
  cases h with
  | closed hblanks => simp [closing_notMem_blanks hblanks]
  | bare hblanks => exact closing_notMem_blanks hblanks

/-- A statement has one `)`, which closes its call. -/
theorem Leads.count {statement after : List Char} (h : Leads statement after) :
    statement.count ')' = 1 := by
  obtain ⟨call, trail, hcall, htrail, rfl⟩ := h
  obtain ⟨front, hfront, rfl⟩ := hcall.exists_front
  simp [List.count_eq_zero.mpr hfront, List.count_eq_zero.mpr htrail.closing_notMem]

/-! ## Finding and stripping -/

theorem count_of_mem_findAll {text statement : String} (h : statement ∈ findAll text) :
    statement.toList.count ')' = 1 := by
  obtain ⟨found, hfound, rfl⟩ := List.mem_map.mp h
  rw [Split.statements, ← Split.map_snd_placesFrom 0 (split text.toList).lead] at hfound
  obtain ⟨span, hspan, rfl⟩ := List.mem_map.mp hfound
  obtain ⟨after, -, hleads⟩ := (cuts_split text.toList).spans.leads hspan
  rw [String.toList_ofList, hleads.count]

/-- Only a text in which nothing is found is left as it is by stripping. -/
theorem stripped_eq_self_iff {text : String} : stripped text = text ↔ findAll text = [] := by
  refine ⟨fun h => ?_, stripped_of_findAll_eq_nil⟩
  cases hfound : findAll text with
  | nil => rfl
  | cons statement others =>
    -- what is found would have no characters
    have hsum := length_stripped text
    have hlong := length_of_mem_findAll (hfound ▸ List.mem_cons_self : statement ∈ findAll text)
    rw [h, hfound, List.map_cons, List.sum_cons] at hsum
    omega

/-- **Finding and stripping are two views of one decomposition.** A text is gaps and statements in
turn, in one way only. The statements are what is found, each at its place; the gaps put together
are what stripping leaves, with the number of statements. So the text is left as it is just if
nothing is found. Its characters, and its bytes, are those of what is left and of the statements,
each of which has thirteen at least; and with each of them one `)` is gone. -/
theorem strip_and_findAll (text : String) : ∃ cut : Split,
    Cuts text.toList cut ∧ (∀ cut', Cuts text.toList cut' → cut' = cut) ∧
    findAll text = cut.statements.map String.ofList ∧
    strip text = (String.ofList cut.kept, (findAll text).length) ∧
    (stripped text = text ↔ findAll text = []) ∧
    (stripped text).length + ((findAll text).map String.length).sum = text.length ∧
    (Utf8.encode (stripped text)).length +
      ((findAll text).map fun s => (Utf8.encode s).length).sum = (Utf8.encode text).length ∧
    (∀ statement ∈ findAll text,
      13 ≤ statement.length ∧ 13 ≤ (Utf8.encode statement).length) ∧
    (stripped text).toList.count ')' + (findAll text).length = text.toList.count ')' := by
  have hclosing : ((findAll text).map fun s => s.toList.count ')').sum =
      (findAll text).length := by
    have hone : (findAll text).map (fun s => s.toList.count ')') = (findAll text).map fun _ => 1 :=
      List.map_congr_left fun _ => count_of_mem_findAll
    rw [hone, List.map_const', List.sum_replicate_nat, Nat.mul_one]
  refine ⟨split text.toList, cuts_split _, fun cut' h => h.eq_split, rfl, strip_eq text,
    stripped_eq_self_iff, length_stripped text, length_encode_add_sum text,
    fun _ h => ⟨length_of_mem_findAll h, length_encode_of_mem_findAll h⟩, ?_⟩
  have hsum := sum_stripped (List.count ')') (fun _ _ => List.count_append) text
  rwa [hclosing] at hsum

end Statement

end ConsoleSweep
