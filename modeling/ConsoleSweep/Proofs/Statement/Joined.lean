import ConsoleSweep.Proofs.Statement.Gaps

/-!
# Texts that meet at a `)`

A text is cut on its own wherever a `)` ends the part before it and neither a blank nor a `;` goes
on behind it. No statement reaches over such a point: its one `)` closes its call, and what it has
after that are blanks and one `;`. So the statements of the whole are those of the two parts, each
at its place, and each part is stripped as if it stood alone (`split_at_closing`).

## Shape of the proof

* A statement does not notice what stands behind the text that follows it (`leads_append_iff`), and
  it ends within a text that ends with `)` (`Leads.prefix_of_closed`).
* So the scanner reads the same statement, and finds the same one first (`rest?_append`,
  `first?_append`).
* `split_append` follows the scanner through the first part, which it leaves for the second one
  without having read any of it.
-/

namespace ConsoleSweep

namespace Split

/-! ## Cut texts in a row -/

/-- A cut text behind one that is given by its lead and its tail: the last gap of the one and the
first gap of the other are one gap. -/
def extend : List Char → List (List Char × List Char) → Split → Split
  | lead, [], t => ⟨lead ++ t.lead, t.tail⟩
  | lead, (statement, gap) :: rest, t => (extend gap rest t).push lead statement

/-- One cut text after the other. -/
def append (s t : Split) : Split := extend s.lead s.tail t

theorem push_append (gap statement : List Char) (s t : Split) :
    (s.push gap statement).append t = (s.append t).push gap statement := rfl

theorem statements_append (s t : Split) :
    (s.append t).statements = s.statements ++ t.statements := by
  obtain ⟨lead, tail⟩ := s
  induction tail generalizing lead with
  | nil => rfl
  | cons first rest ih => exact congrArg (first.1 :: ·) (ih first.2)

theorem kept_append (s t : Split) : (s.append t).kept = s.kept ++ t.kept := by
  obtain ⟨lead, tail⟩ := s
  induction tail generalizing lead with
  | nil => simp [append, extend, kept]
  | cons first rest ih =>
    obtain ⟨statement, gap⟩ := first
    have hpush : ∀ s : Split, (s.push lead statement).kept = lead ++ s.kept := fun s => by
      simp [push, kept]
    calc ((Split.mk gap rest).push lead statement |>.append t).kept
        = lead ++ ((Split.mk gap rest).append t).kept := by rw [push_append, hpush]
      _ = lead ++ (Split.mk gap rest).kept ++ t.kept := by rw [ih, List.append_assoc]
      _ = ((Split.mk gap rest).push lead statement).kept ++ t.kept := by rw [hpush]

/-- The places of the second text start where the first one ends. -/
theorem placesFrom_append (i : ℕ) (s t : Split) :
    placesFrom i (s.append t).lead (s.append t).tail =
      placesFrom i s.lead s.tail ++ placesFrom (i + s.whole.length) t.lead t.tail := by
  obtain ⟨lead, tail⟩ := s
  induction tail generalizing i lead with
  | nil =>
    cases t with
    | mk lead' tail' =>
      cases tail' with
      | nil => rfl
      | cons first rest => simp [append, extend, placesFrom, whole, Nat.add_assoc]
  | cons first rest ih =>
    obtain ⟨statement, gap⟩ := first
    have hlength : i + (Split.mk lead ((statement, gap) :: rest)).whole.length =
        i + lead.length + statement.length + (Split.mk gap rest).whole.length := by
      simp only [whole, List.flatMap_cons, List.length_append]
      omega
    rw [hlength]
    exact congrArg (List.cons _) (ih _ gap)

/-- Places counted from further on. -/
theorem placesFrom_add (k i : ℕ) (lead : List Char) (tail : List (List Char × List Char)) :
    placesFrom (k + i) lead tail =
      (placesFrom i lead tail).map fun span => (k + span.1, span.2) := by
  induction tail generalizing i lead with
  | nil => rfl
  | cons first rest ih =>
    simp only [placesFrom, List.map_cons, Nat.add_assoc, ih]

theorem places_append (s t : Split) : (s.append t).places =
    s.places ++ t.places.map fun span => (s.whole.length + span.1, span.2) := by
  have hlater := placesFrom_add s.whole.length 0 t.lead t.tail
  rw [Nat.add_zero] at hlater
  rw [places, placesFrom_append, Nat.zero_add, hlater]
  rfl

end Split

namespace Statement

/-! ## A statement before the point -/

/-- Nothing in front of a text belongs to the end of a statement. -/
def Fresh (text : List Char) : Prop := ∀ c ∈ text.head?, isBlank c = false ∧ c ≠ ';'

variable {a b statement after : List Char}

/-- A statement does not notice what stands behind the text that follows it. -/
theorem leads_append_iff (hb : Fresh b) : Leads statement (after ++ b) ↔ Leads statement after := by
  have htrail : ∀ trail, Trail trail (after ++ b) ↔ Trail trail after := by
    intro trail
    have hend : Fresh (after ++ b) ↔ Fresh after := by
      cases after with
      | nil => exact iff_of_true hb nofun
      | cons c rest => exact Iff.rfl
    constructor
    · rintro (hblanks | ⟨hblanks, hafter⟩)
      · exact .closed hblanks
      · exact .bare hblanks (hend.mp hafter)
    · rintro (hblanks | ⟨hblanks, hafter⟩)
      · exact .closed hblanks
      · exact .bare hblanks (hend.mpr hafter)
  simp only [Leads, htrail]

theorem Fresh.of_prefix (h : Fresh b) (hstart : a <+: b) : Fresh a := by
  obtain ⟨rest, rfl⟩ := hstart
  intro c hc
  exact h c (Option.mem_def.mpr (by rw [List.head?_append, Option.mem_def.mp hc]; rfl))

theorem Trail.blank_or_semicolon {trail : List Char} (h : Trail trail after) :
    ∀ c ∈ trail, isBlank c = true ∨ c = ';' := by
  intro c hc
  cases h with
  | closed hblanks =>
    rcases List.mem_append.mp hc with hc | hc
    · exact .inl (hblanks c hc)
    · exact .inr (List.mem_singleton.mp hc)
  | bare hblanks => exact .inl (hblanks c hc)

/-- Where nothing of a statement's end stands, a statement has ended. -/
theorem Trail.eq_nil_of_fresh {trail : List Char} (h : Trail trail after) (hfresh : Fresh trail) :
    trail = [] := by
  cases trail with
  | nil => rfl
  | cons c rest =>
    obtain ⟨hblank, hsemicolon⟩ := hfresh c rfl
    rcases h.blank_or_semicolon c List.mem_cons_self with hc | hc
    · rw [hblank] at hc
      cases hc
    · exact absurd hc hsemicolon

/-- A statement ends within a text that ends with `)`. -/
theorem Leads.prefix_of_closed (h : Leads statement after) (ha : a.getLast? = some ')')
    (hb : Fresh b) (htext : a ++ b = statement ++ after) : statement <+: a := by
  rcases List.prefix_or_prefix_of_prefix ⟨after, htext.symm⟩ ⟨b, rfl⟩ with
    hwithin | ⟨beyond, hbeyond⟩
  · exact hwithin
  -- the `)` at the end of the text is the one that closes the call
  obtain ⟨call, trail, hcall, htrail, hstatement⟩ := h
  obtain ⟨front, hfront, rfl⟩ := hcall.exists_front
  obtain ⟨before, rfl⟩ := List.getLast?_eq_some_iff.mp ha
  have hclosing : front ++ ')' :: trail = before ++ ')' :: beyond := by
    rw [hstatement] at hbeyond
    simpa using hbeyond.symm
  obtain ⟨-, -, rfl⟩ :=
    (List.append_cons_inj_of_notMem hfront htrail.closing_notMem).mp hclosing
  have hbehind : b = trail ++ after := by
    rw [← hbeyond, List.append_assoc (before ++ [')'])] at htext
    exact List.append_cancel_left htext
  have hfresh : Fresh trail := hb.of_prefix ⟨after, hbehind.symm⟩
  have hsame : statement = before ++ [')'] := by
    rw [← hbeyond, htrail.eq_nil_of_fresh hfresh, List.append_nil]
  exact hsame.symm ▸ List.prefix_rfl

/-- The scanner reads the same statement there, if it reads one. -/
theorem rest?_append (ha : a.getLast? = some ')') (hb : Fresh b) :
    rest? (a ++ b) = (rest? a).map (· ++ b) := by
  refine Option.ext fun after => ?_
  rw [Option.map_eq_some_iff, rest?_eq_some_iff]
  constructor
  · rintro ⟨statement, hleads, htext⟩
    obtain ⟨rest, rfl⟩ := hleads.prefix_of_closed ha hb htext
    rw [List.append_assoc, List.append_cancel_left_eq] at htext
    subst htext
    exact ⟨rest, rest?_eq_some_iff.mpr ⟨statement, (leads_append_iff hb).mp hleads, rfl⟩, rfl⟩
  · rintro ⟨rest, hrest, rfl⟩
    obtain ⟨statement, hleads, rfl⟩ := rest?_eq_some_iff.mp hrest
    exact ⟨statement, (leads_append_iff hb).mpr hleads, List.append_assoc ..⟩

/-! ## All statements of both texts -/

/-- The end of a text ends with what the text ends with. -/
theorem closed_of_suffix {rest : List Char} (ha : ∀ c ∈ a.getLast?, c = ')') (hrest : rest <:+ a) :
    ∀ c ∈ rest.getLast?, c = ')' := by
  obtain ⟨front, rfl⟩ := hrest
  intro c hc
  exact ha c (Option.mem_def.mpr (by rw [List.getLast?_append, Option.mem_def.mp hc]; rfl))

/-- What is found first in a text that ends with `)` is found first in the whole; if nothing is, it
is what is found first in the text behind it. -/
theorem first?_append (ha : ∀ c ∈ a.getLast?, c = ')') (hb : Fresh b) :
    first? (a ++ b) =
      match first? a with
      | some found => some { found with after := found.after ++ b }
      | none => (first? b).map fun found => { found with before := a ++ found.before } := by
  induction a with
  | nil => simp [first?]
  | cons c cs ih =>
    have hlast : (c :: cs).getLast? = some ')' := by
      rw [List.getLast?_eq_some_getLast (List.cons_ne_nil c cs)] at ha ⊢
      rw [ha _ rfl]
    have hrest := rest?_append hlast hb
    rw [List.cons_append] at hrest ⊢
    rw [first?, first?, hrest, ih (closed_of_suffix ha (List.suffix_cons c cs))]
    cases hread : rest? (c :: cs) with
    | some after =>
      -- the statement is as long as it was
      have hlength : (c :: (cs ++ b)).length - (after ++ b).length =
          (c :: cs).length - after.length := by
        simp only [List.length_cons, List.length_append]
        omega
      simp only [Option.map_some, hlength]
      rw [← List.cons_append, List.take_append_of_le_length (Nat.sub_le _ _)]
    | none =>
      simp only [Option.map_none]
      cases first? cs with
      | some found => rfl
      | none => simp [Option.map_map, Function.comp_def]

theorem split_of_none {text : List Char} (h : first? text = none) : split text = ⟨text, []⟩ := by
  rw [split]
  split
  next => rfl
  next found hfound => cases h.symm.trans hfound

theorem split_of_some {text : List Char} {found : Found} (h : first? text = some found) :
    split text = (split found.after).push found.before found.statement := by
  rw [split]
  split
  next hnone => cases h.symm.trans hnone
  next found' hfound =>
    cases h.symm.trans hfound
    rfl

/-- **Two texts that meet at a `)` are cut each on its own.** -/
theorem split_append (ha : ∀ c ∈ a.getLast?, c = ')') (hb : Fresh b) :
    split (a ++ b) = (split a).append (split b) := by
  fun_induction split a with
  | case1 a hnone =>
    have hfirst := first?_append ha hb
    rw [hnone] at hfirst
    cases hfound : first? b with
    | none =>
      rw [hfound] at hfirst
      rw [split_of_none hfirst, split_of_none hfound]
      rfl
    | some found =>
      rw [hfound] at hfirst
      rw [split_of_some hfirst, split_of_some hfound]
      rfl
  | case2 a found hfound ih =>
    have hfirst := first?_append ha hb
    rw [hfound] at hfirst
    have hafter : found.after <:+ a := ⟨_, (eq_of_first? hfound).symm⟩
    rw [split_of_some hfirst, ih (closed_of_suffix ha hafter), Split.push_append]

/-- **Stripping splits at every `)`** behind which neither a blank nor a `;` stands. What is found
in the whole is what is found in the text up to there, at the same places, and then what is found in
the text behind it, so far further on; and stripping the whole strips the two. -/
theorem split_at_closing {a b : String} (ha : a.toList.getLast? = some ')')
    (hb : ∀ c ∈ b.toList.head?, isBlank c = false ∧ c ≠ ';') :
    findAll (a ++ b) = findAll a ++ findAll b ∧
      strip (a ++ b) = (stripped a ++ stripped b, (strip a).2 + (strip b).2) ∧
      (split (a ++ b).toList).places = (split a.toList).places ++
        (split b.toList).places.map fun span => (a.length + span.1, span.2) := by
  have hsplit : split (a ++ b).toList = (split a.toList).append (split b.toList) := by
    rw [String.toList_append]
    refine split_append (fun c hc => ?_) hb
    rw [ha] at hc
    exact (Option.some.inj hc).symm
  have hfound : findAll (a ++ b) = findAll a ++ findAll b := by
    rw [findAll, hsplit, Split.statements_append, List.map_append]
    rfl
  have hstripped : stripped (a ++ b) = stripped a ++ stripped b := by
    simp only [stripped, strip, hsplit, Split.kept_append, String.ofList_append]
  refine ⟨hfound, ?_, ?_⟩
  · rw [strip_eq, hstripped, hfound, List.length_append, strip_count, strip_count]
  · rw [hsplit, Split.places_append, whole_split, String.length_toList]

/-- A `)` closes a statement whose arguments have another one after it. -/
theorem split_at_closing_nested :
    findAll ("f(console.lo); console.error(g(1)" ++ "); console.log(2);") =
        ["console.error(g(1)", "console.log(2);"] ∧
      strip ("f(console.lo); console.error(g(1)" ++ "); console.log(2);") =
        ("f(console.lo); ); ", 2) := by
  have hfirst : findAll "f(console.lo); console.error(g(1)" = ["console.error(g(1)"] ∧
      stripped "f(console.lo); console.error(g(1)" = "f(console.lo); " := by decide +kernel
  have hsecond : findAll "); console.log(2);" = ["console.log(2);"] ∧
      stripped "); console.log(2);" = "); " := by decide +kernel
  have hfresh : ∀ c ∈ "); console.log(2);".toList.head?, isBlank c = false ∧ c ≠ ';' := by
    rw [show "); console.log(2);".toList.head? = some ')' by decide +kernel]
    rintro c ⟨⟩
    decide
  obtain ⟨hfound, hstrip, -⟩ := split_at_closing (a := "f(console.lo); console.error(g(1)")
    (b := "); console.log(2);") (by decide +kernel) hfresh
  rw [strip_count, strip_count, hfirst.1, hfirst.2, hsecond.1, hsecond.2] at hstrip
  rw [hfirst.1, hsecond.1] at hfound
  exact ⟨hfound, hstrip.trans (by decide +kernel)⟩

end Statement

end ConsoleSweep
