import Mathlib.Data.List.TakeWhile
import ConsoleSweep.Statement.Split

/-!
# The grammar of statements

`Call` and `Trail` spell out what a statement is: a call up to the first `)` after its `(`, and what
follows the call and still belongs to the statement. `Spans` says where statements stand in a text:
each starts at the first place, from the end of the one before it on, where a call starts.

The grammar leaves no choice. The scanner finds what it describes, in every text
(`exists_spans`), a text has no other spans (`Spans.unique`), and every call that starts anywhere in
the text starts within one of them (`Spans.covers`); so finding statements is the grammar
(`findAll_eq_iff`).

## Shape of the proof

* Each word that the scanner reads, and each run that it skips, is a way to cut the text
  (`after?_eq_some_iff`, `after?_dropWhile_eq_some_iff`).
* `rest?_eq_some_iff` puts them together: the scanner reads a statement exactly where one leads.
* `first?_spec` and `spans_split` follow the scanner through the text.
-/

namespace ConsoleSweep

namespace Split

/-- The statements of a cut text, each with the place where it starts if the text starts at `i`. -/
def placesFrom (i : ℕ) : List Char → List (List Char × List Char) → List (ℕ × List Char)
  | _, [] => []
  | lead, (statement, gap) :: rest =>
    (i + lead.length, statement) :: placesFrom (i + lead.length + statement.length) gap rest

/-- The statements of a cut text, each with the place where it starts. -/
def places (s : Split) : List (ℕ × List Char) := placesFrom 0 s.lead s.tail

theorem map_snd_placesFrom (i : ℕ) (lead : List Char) (tail : List (List Char × List Char)) :
    (placesFrom i lead tail).map Prod.snd = tail.map Prod.fst := by
  induction tail generalizing i lead with
  | nil => rfl
  | cons first rest ih =>
    rw [placesFrom, List.map_cons, List.map_cons, ih]

end Split

namespace Statement

/-! ## The grammar -/

/-- A run of blanks. -/
def Blanks (cs : List Char) : Prop := ∀ c ∈ cs, isBlank c

/-- A call of one of the methods. Its arguments are any characters but `)`. -/
inductive Call : List Char → Prop where
  | intro {method : String} {blanks arguments : List Char}
      (hmethod : method ∈ ["log", "debug", "info", "warn", "error"]) (hblanks : Blanks blanks)
      (harguments : ')' ∉ arguments) :
      Call ("console.".toList ++ method.toList ++ blanks ++ ['('] ++ arguments ++ [')'])

/-- What a statement has after its call, in front of `after`: all the blanks there are, and one `;`
if it comes next. -/
inductive Trail : (trail after : List Char) → Prop where
  | closed {blanks after : List Char} (hblanks : Blanks blanks) : Trail (blanks ++ [';']) after
  | bare {blanks after : List Char} (hblanks : Blanks blanks)
      (hend : ∀ c ∈ after.head?, isBlank c = false ∧ c ≠ ';') : Trail blanks after

/-- A statement that stands in front of `after`. -/
def Leads (statement after : List Char) : Prop :=
  ∃ call trail, Call call ∧ Trail trail after ∧ statement = call ++ trail

/-- A text that goes on with a call. -/
def Starts (text : List Char) : Prop := ∃ call, Call call ∧ call <+: text

/-- The statements of a text from a place on, each with the place where it starts. -/
inductive Spans (text : List Char) : ℕ → List (ℕ × List Char) → Prop where
  /-- No call starts there or later. -/
  | done {i : ℕ} (hnone : ∀ p, i ≤ p → ¬ Starts (text.drop p)) : Spans text i []
  /-- The statement at the first place where a call starts, and those from its end on. -/
  | next {i p : ℕ} {statement after : List Char} {spans : List (ℕ × List Char)} (hle : i ≤ p)
      (hfirst : ∀ q, i ≤ q → q < p → ¬ Starts (text.drop q))
      (htext : text.drop p = statement ++ after) (hleads : Leads statement after)
      (hrest : Spans text (p + statement.length) spans) : Spans text i ((p, statement) :: spans)

/-! ## Cutting a text -/

theorem after?_eq_some_iff {word text rest : List Char} :
    after? word text = some rest ↔ text = word ++ rest := by
  constructor
  · exact after?_eq_some
  · rintro rfl
    simp [after?]

/-- Skipping a run and reading the character that ends it. -/
theorem after?_dropWhile_eq_some_iff {p : Char → Bool} {c : Char} (hc : p c = false)
    {text rest : List Char} :
    after? [c] (text.dropWhile p) = some rest ↔
      ∃ run, (∀ x ∈ run, p x) ∧ text = run ++ c :: rest := by
  rw [after?_eq_some_iff]
  constructor
  · intro h
    refine ⟨text.takeWhile p, fun x => List.mem_takeWhile_imp, ?_⟩
    calc text = text.takeWhile p ++ text.dropWhile p := List.takeWhile_append_dropWhile.symm
      _ = text.takeWhile p ++ c :: rest := by rw [h]; rfl
  · rintro ⟨run, hrun, rfl⟩
    rw [List.dropWhile_append_of_pos hrun, List.dropWhile_cons_of_neg (by simp [hc])]
    rfl

/-- No method is a prefix of another. -/
theorem eq_of_prefix_methods :
    ∀ method ∈ methods, ∀ other ∈ methods, method <+: other → method = other := by
  decide

theorem findSome?_methods_eq_some_iff {text rest : List Char} :
    methods.findSome? (after? · text) = some rest ↔ ∃ method ∈ methods, text = method ++ rest := by
  have hread : ∀ {rest}, methods.findSome? (after? · text) = some rest →
      ∃ method ∈ methods, text = method ++ rest := by
    intro rest h
    obtain ⟨method, hmethod, hafter⟩ := List.exists_of_findSome?_eq_some h
    exact ⟨method, hmethod, after?_eq_some hafter⟩
  refine ⟨hread, ?_⟩
  rintro ⟨method, hmethod, htext⟩
  have hsome : (methods.findSome? (after? · text)).isSome :=
    List.findSome?_isSome_iff.mpr
      ⟨method, hmethod, by rw [after?_eq_some_iff.mpr htext, Option.isSome_some]⟩
  obtain ⟨rest', hrest'⟩ := Option.isSome_iff_exists.mp hsome
  obtain ⟨other, hother, htext'⟩ := hread hrest'
  -- both methods are prefixes of the text, so one is a prefix of the other
  have hsame : method = other := by
    rcases List.prefix_or_prefix_of_prefix ⟨rest, htext.symm⟩ ⟨rest', htext'.symm⟩ with h | h
    · exact eq_of_prefix_methods method hmethod other hother h
    · exact (eq_of_prefix_methods other hother method hmethod h).symm
  rw [hrest']
  rw [htext, hsame] at htext'
  rw [List.append_cancel_left htext']

theorem mem_methods_iff {cs : List Char} :
    cs ∈ methods ↔ ∃ method ∈ ["log", "debug", "info", "warn", "error"], method.toList = cs := by
  have hmethods : methods = ["log", "debug", "info", "warn", "error"].map String.toList := by
    decide
  rw [hmethods, List.mem_map]

theorem opener_eq : opener = "console.".toList := by decide

/-! ## One statement -/

/-- The scanner reads a call, and drops what the statement has after it. -/
theorem rest?_eq_some_iff_call {text after : List Char} :
    rest? text = some after ↔
      ∃ call closed, Call call ∧ text = call ++ closed ∧
        dropSemicolon (closed.dropWhile isBlank) = after := by
  simp only [rest?, Option.bind_eq_bind, Option.pure_def, Option.bind_eq_some_iff,
    Option.some.injEq, after?_eq_some_iff, findSome?_methods_eq_some_iff]
  constructor
  · rintro ⟨called, rfl, named, ⟨method, hmethod, rfl⟩, arguments, hopen, closed, hclose, hafter⟩
    obtain ⟨blanks, hblanks, rfl⟩ :=
      (after?_dropWhile_eq_some_iff (by decide)).mp (after?_eq_some_iff.mpr hopen)
    obtain ⟨inner, hinner, rfl⟩ :=
      (after?_dropWhile_eq_some_iff (by decide)).mp (after?_eq_some_iff.mpr hclose)
    obtain ⟨name, hname, rfl⟩ := mem_methods_iff.mp hmethod
    have harguments : ')' ∉ inner := fun hmem => by simpa using hinner ')' hmem
    exact ⟨_, closed, .intro hname hblanks harguments, by simp [opener_eq], hafter⟩
  · rintro ⟨call, closed, hcall, rfl, hafter⟩
    obtain @⟨name, blanks, arguments, hname, hblanks, harguments⟩ := hcall
    refine ⟨name.toList ++ blanks ++ ['('] ++ arguments ++ [')'] ++ closed, by simp [opener_eq],
      blanks ++ ['('] ++ arguments ++ [')'] ++ closed,
      ⟨name.toList, mem_methods_iff.mpr ⟨name, hname, rfl⟩, by simp⟩,
      arguments ++ [')'] ++ closed, ?_, closed, ?_, hafter⟩
    · exact after?_eq_some_iff.mp ((after?_dropWhile_eq_some_iff (by decide)).mpr
        ⟨blanks, hblanks, by simp⟩)
    · refine after?_eq_some_iff.mp ((after?_dropWhile_eq_some_iff (by decide)).mpr
        ⟨arguments, fun c hc => ?_, by simp⟩)
      have hne : c ≠ ')' := fun heq => harguments (heq ▸ hc)
      simpa using hne

/-- Dropping the blanks and the `;` after a call drops what still belongs to the statement. -/
theorem dropSemicolon_dropWhile_eq_iff {closed after : List Char} :
    dropSemicolon (closed.dropWhile isBlank) = after ↔
      ∃ trail, Trail trail after ∧ closed = trail ++ after := by
  constructor
  · rintro rfl
    have hcut : closed = closed.takeWhile isBlank ++ closed.dropWhile isBlank :=
      List.takeWhile_append_dropWhile.symm
    have hblanks : Blanks (closed.takeWhile isBlank) := fun c => List.mem_takeWhile_imp
    have hhead := List.head?_dropWhile_not isBlank closed
    generalize closed.takeWhile isBlank = blanks, closed.dropWhile isBlank = rest at *
    unfold dropSemicolon
    split
    next after => exact ⟨blanks ++ [';'], .closed hblanks, by simp [hcut]⟩
    next hne =>
      refine ⟨blanks, .bare hblanks fun c hc => ?_, hcut⟩
      rw [Option.mem_def.mp hc] at hhead
      obtain ⟨tail, rfl⟩ := List.head?_eq_some_iff.mp hc
      exact ⟨hhead, fun heq => hne tail (by rw [heq])⟩
  · rintro ⟨trail, htrail, rfl⟩
    cases htrail with
    | @closed blanks _ hblanks =>
      rw [List.append_assoc, List.dropWhile_append_of_pos hblanks]
      rfl
    | bare hblanks hend =>
      rw [List.dropWhile_append_of_pos hblanks]
      cases after with
      | nil => rfl
      | cons c rest =>
        obtain ⟨hblank, hne⟩ := hend c rfl
        rw [List.dropWhile_cons_of_neg (by simp [hblank])]
        unfold dropSemicolon
        split
        next heq => cases heq; exact absurd rfl hne
        next => rfl

/-- **The scanner reads a statement exactly where one leads.** -/
theorem rest?_eq_some_iff {text after : List Char} :
    rest? text = some after ↔ ∃ statement, Leads statement after ∧ text = statement ++ after := by
  rw [rest?_eq_some_iff_call]
  constructor
  · rintro ⟨call, closed, hcall, rfl, hafter⟩
    obtain ⟨trail, htrail, rfl⟩ := dropSemicolon_dropWhile_eq_iff.mp hafter
    exact ⟨call ++ trail, ⟨call, trail, hcall, htrail, rfl⟩, by rw [List.append_assoc]⟩
  · rintro ⟨_, ⟨call, trail, hcall, htrail, rfl⟩, rfl⟩
    exact ⟨call, trail ++ after, hcall, List.append_assoc ..,
      dropSemicolon_dropWhile_eq_iff.mpr ⟨trail, htrail, rfl⟩⟩

/-- The statement at the front of a text is the only one there. -/
theorem Leads.unique {statement statement' after after' : List Char} (h : Leads statement after)
    (h' : Leads statement' after') (htext : statement ++ after = statement' ++ after') :
    statement = statement' := by
  have hrest : rest? (statement ++ after) = some after := rest?_eq_some_iff.mpr ⟨_, h, rfl⟩
  have hrest' : rest? (statement ++ after) = some after' :=
    rest?_eq_some_iff.mpr ⟨_, h', htext⟩
  cases hrest.symm.trans hrest'
  exact List.append_cancel_right htext

theorem starts_iff {text : List Char} : Starts text ↔ ∃ after, rest? text = some after := by
  simp only [rest?_eq_some_iff_call]
  constructor
  · rintro ⟨call, hcall, closed, rfl⟩
    exact ⟨_, call, closed, hcall, rfl, rfl⟩
  · rintro ⟨_, call, closed, hcall, rfl, -⟩
    exact ⟨call, hcall, closed, rfl⟩

theorem Leads.starts {statement after : List Char} (h : Leads statement after) :
    Starts (statement ++ after) :=
  starts_iff.mpr ⟨after, rest?_eq_some_iff.mpr ⟨statement, h, rfl⟩⟩

theorem not_starts_of_rest? {text : List Char} (h : rest? text = none) : ¬ Starts text := by
  intro hstarts
  obtain ⟨after, hafter⟩ := starts_iff.mp hstarts
  cases h.symm.trans hafter

/-! ## All statements of a text -/

/-- A text in which the scanner finds nothing has no call. -/
theorem not_starts_of_first? {text : List Char} (h : first? text = none) (p : ℕ) :
    ¬ Starts (text.drop p) := by
  induction text generalizing p with
  | nil =>
    rw [List.drop_nil]
    exact not_starts_of_rest? (by decide)
  | cons c cs ih =>
    unfold first? at h
    split at h
    next => cases h
    next hnone =>
      cases p with
      | zero => exact not_starts_of_rest? hnone
      | succ p => exact ih (Option.map_eq_none_iff.mp h) p

/-- What the scanner finds first leads what is left of the text, and no call starts before it. -/
theorem first?_spec {text : List Char} {found : Found} (h : first? text = some found) :
    Leads found.statement found.after ∧
      ∀ p < found.before.length, ¬ Starts (text.drop p) := by
  induction text generalizing found with
  | nil => cases h
  | cons c cs ih =>
    unfold first? at h
    split at h
    next after hafter =>
      cases h
      obtain ⟨statement, hleads, hcut⟩ := rest?_eq_some_iff.mp hafter
      have hstatement : (c :: cs).take ((c :: cs).length - after.length) = statement := by
        rw [hcut, List.length_append, Nat.add_sub_cancel, List.take_left]
      exact ⟨hstatement ▸ hleads, fun p hp => absurd hp (Nat.not_lt_zero p)⟩
    next hnone =>
      obtain ⟨inner, hinner, rfl⟩ := Option.map_eq_some_iff.mp h
      obtain ⟨hleads, hfirst⟩ := ih hinner
      refine ⟨hleads, fun p hp => ?_⟩
      cases p with
      | zero => exact not_starts_of_rest? hnone
      | succ p => exact hfirst p (Nat.lt_of_succ_lt_succ hp)

/-- Cut from a place on, a text has its statements where the grammar says. -/
theorem spans_split (text : List Char) (i : ℕ) :
    Spans text i (Split.placesFrom i (split (text.drop i)).lead (split (text.drop i)).tail) := by
  generalize hrest : text.drop i = rest
  fun_induction split rest generalizing i with
  | case1 rest hnone =>
    refine .done fun p hp => ?_
    have hlater := not_starts_of_first? hnone (p - i)
    rwa [← hrest, List.drop_drop, Nat.add_sub_cancel' hp] at hlater
  | case2 rest found hfound ih =>
    have hcut := eq_of_first? hfound
    obtain ⟨hleads, hfirst⟩ := first?_spec hfound
    have hdrop : ∀ k, text.drop (i + k) = rest.drop k := fun k => by
      rw [← hrest, List.drop_drop]
    have hstart : text.drop (i + found.before.length) = found.statement ++ found.after := by
      rw [hdrop, hcut, List.append_assoc, List.drop_left]
    have hend : text.drop (i + found.before.length + found.statement.length) = found.after := by
      rw [← List.drop_drop, hstart, List.drop_left]
    refine .next (Nat.le_add_right _ _) (fun q hle hlt => ?_) hstart hleads (ih _ hend)
    have hgap := hfirst (q - i) (Nat.sub_lt_left_of_lt_add hle hlt)
    rwa [← hdrop, Nat.add_sub_cancel' hle] at hgap

/-- The statements that the scanner cuts out of a text stand in it as the grammar says. -/
theorem exists_spans (text : List Char) (i : ℕ) :
    ∃ spans, Spans text i spans ∧ spans.map Prod.snd = (split (text.drop i)).statements :=
  ⟨_, spans_split text i, Split.map_snd_placesFrom _ _ _⟩

namespace Spans

variable {text : List Char} {i : ℕ} {spans spans' : List (ℕ × List Char)}

/-- A text has no other spans: where each of them starts and ends is settled by those before. -/
theorem unique (h : Spans text i spans) (h' : Spans text i spans') : spans = spans' := by
  induction h generalizing spans' with
  | done hnone =>
    cases h' with
    | done => rfl
    | next hle _ htext hleads => exact absurd (htext ▸ hleads.starts) (hnone _ hle)
  | @next i p statement after rest hle hfirst htext hleads _ ih =>
    cases h' with
    | done hnone => exact absurd (htext ▸ hleads.starts) (hnone p hle)
    | @next _ p' statement' after' rest' hle' hfirst' htext' hleads' hrest' =>
      have hplace : p = p' := by
        rcases Nat.lt_trichotomy p p' with hlt | heq | hlt
        · exact absurd (htext ▸ hleads.starts) (hfirst' p hle hlt)
        · exact heq
        · exact absurd (htext' ▸ hleads'.starts) (hfirst p' hle' hlt)
      subst hplace
      cases hleads.unique hleads' (htext.symm.trans htext')
      rw [ih hrest']

/-- Wherever a call starts, it starts within a span. -/
theorem covers (h : Spans text i spans) {p : ℕ} (hle : i ≤ p) (hstarts : Starts (text.drop p)) :
    ∃ span ∈ spans, span.1 ≤ p ∧ p < span.1 + span.2.length := by
  induction h with
  | done hnone => exact absurd hstarts (hnone p hle)
  | @next i start statement after rest _ hfirst _ _ _ ih =>
    by_cases hbefore : p < start
    · exact absurd hstarts (hfirst p hle hbefore)
    · by_cases hin : p < start + statement.length
      · exact ⟨_, List.mem_cons_self, Nat.le_of_not_lt hbefore, hin⟩
      · obtain ⟨span, hspan, hplace⟩ := ih (Nat.le_of_not_lt hin)
        exact ⟨span, List.mem_cons_of_mem _ hspan, hplace⟩

end Spans

/-- **Finding statements is the grammar.** The statements found in a text are those that stand at
its spans, in order: each starts at the first place, from the end of the one before it on, where a
call starts, and goes on through the blanks after the call and one `;`. Wherever in the text a call
starts, it starts within one of them. -/
theorem findAll_eq_iff (text : String) (found : List String) :
    findAll text = found ↔
      ∃ spans, Spans text.toList 0 spans ∧
        (∀ p, Starts (text.toList.drop p) →
          ∃ span ∈ spans, span.1 ≤ p ∧ p < span.1 + span.2.length) ∧
        found = spans.map fun span => String.ofList span.2 := by
  obtain ⟨spans, hspans, hfound⟩ := exists_spans text.toList 0
  have hall : findAll text = spans.map fun span => String.ofList span.2 := by
    rw [List.drop_zero] at hfound
    rw [findAll, ← hfound, List.map_map]
    rfl
  rw [hall]
  constructor
  · rintro rfl
    exact ⟨spans, hspans, fun p => hspans.covers (Nat.zero_le p), rfl⟩
  · rintro ⟨spans', hspans', -, rfl⟩
    rw [hspans.unique hspans']

end Statement

end ConsoleSweep
