import Mathlib.Algebra.Order.BigOperators.Group.List
import Mathlib.Algebra.Order.Ring.Nat
import ConsoleSweep.Proofs.Text.Utf8
import ConsoleSweep.Statement.Split

/-!
# Stripping a text

`stripped` is the text that stripping leaves. A text without statements is left as it is
(`stripped_of_findAll_eq_nil`). Stripping is not idempotent, though: a statement deleted from
between two halves of another one joins them, so `stripped` may have to be applied again. It cannot
go on for ever, as each statement takes thirteen bytes with it at least
(`length_encode_stripped`).

What is added up along a text, such as its characters or its bytes, is shared out between what is
kept and the statements (`sum_stripped`).
-/

namespace ConsoleSweep

/-- What adds up along a text is shared out between what is kept and the statements. -/
theorem Split.sum_kept (measure : List Char → ℕ)
    (hadd : ∀ a b, measure (a ++ b) = measure a + measure b) (s : Split) :
    measure s.kept + (s.statements.map measure).sum = measure s.whole := by
  obtain ⟨lead, tail⟩ := s
  simp only [Split.kept, Split.whole, Split.statements, hadd]
  induction tail with
  | nil => simp
  | cons first rest ih =>
    simp only [List.flatMap_cons, List.map_cons, List.sum_cons, hadd]
    omega

namespace Statement

/-- A text without its statements. -/
def stripped (text : String) : String := (strip text).1

theorem strip_eq (text : String) : strip text = (stripped text, (findAll text).length) :=
  Prod.ext rfl (strip_count text)

theorem findAll_eq_nil_iff {text : String} : findAll text = [] ↔ (split text.toList).tail = [] := by
  rw [findAll, Split.statements, List.map_eq_nil_iff, List.map_eq_nil_iff]

/-- A text without statements is left as it is. -/
theorem stripped_of_findAll_eq_nil {text : String} (h : findAll text = []) :
    stripped text = text := by
  rw [findAll_eq_nil_iff] at h
  have hwhole := whole_split text.toList
  simp only [Split.whole, h, List.flatMap_nil, List.append_nil] at hwhole
  simp only [stripped, strip, Split.kept, h, List.flatMap_nil, List.append_nil, hwhole]
  exact String.ofList_toList

/-! ## How much is removed

The shortest statement is `console.log()`, of thirteen characters: the opener has eight, a method
has three at least, and there are two parentheses.
-/

theorem three_le_length_of_mem_methods {method : List Char} (h : method ∈ methods) :
    3 ≤ method.length := by
  revert method
  decide

theorem length_of_after? {word text rest : List Char} (h : after? word text = some rest) :
    text.length = word.length + rest.length := by
  rw [after?_eq_some h, List.length_append]

/-- What follows a statement is shorter by the length of the shortest one at least. -/
theorem length_of_rest? {text rest : List Char} (h : rest? text = some rest) :
    rest.length + 13 ≤ text.length := by
  simp only [rest?, Option.bind_eq_bind, Option.pure_def, Option.bind_eq_some_iff,
    Option.some.injEq] at h
  obtain ⟨called, hcalled, named, hnamed, arguments, harguments, closed, hclosed, rfl⟩ := h
  obtain ⟨method, hmethod, hafter⟩ := List.exists_of_findSome?_eq_some hnamed
  have hopener := length_of_after? hcalled
  have hthree := three_le_length_of_mem_methods hmethod
  have hname := length_of_after? hafter
  have hopen := length_of_after? harguments
  have hclose := length_of_after? hclosed
  -- what stands between these words only makes the statement longer
  have hblanks := (List.dropWhile_suffix isBlank (l := named)).length_le
  have hinner := (List.dropWhile_suffix (· != ')') (l := arguments)).length_le
  have htrail := (List.dropWhile_suffix isBlank (l := closed)).length_le
  have hsemicolon := (dropSemicolon_suffix (closed.dropWhile isBlank)).length_le
  simp only [opener_length, List.length_singleton] at hopener hopen hclose
  omega

theorem length_statement_of_first? {text : List Char} {found : Found}
    (h : first? text = some found) : 13 ≤ found.statement.length := by
  induction text generalizing found with
  | nil => cases h
  | cons c cs ih =>
    unfold first? at h
    split at h
    next rest hrest =>
      cases h
      have hlength := length_of_rest? hrest
      rw [List.length_take]
      omega
    next =>
      obtain ⟨inner, hinner, rfl⟩ := Option.map_eq_some_iff.mp h
      have hlength := ih hinner
      exact hlength

/-- A statement has thirteen characters at least. -/
theorem length_of_mem_statements {text statement : List Char}
    (h : statement ∈ (split text).statements) : 13 ≤ statement.length := by
  fun_induction split text with
  | case1 text hnone => cases h
  | case2 text found hfound ih =>
    rcases List.mem_cons.mp h with rfl | h
    · exact length_statement_of_first? hfound
    · exact ih h

/-- What adds up along a text is that of the stripped text and that of what is found. -/
theorem sum_stripped (measure : List Char → ℕ)
    (hadd : ∀ a b, measure (a ++ b) = measure a + measure b) (text : String) :
    measure (stripped text).toList + ((findAll text).map fun s => measure s.toList).sum =
      measure text.toList := by
  have hsum := Split.sum_kept measure hadd (split text.toList)
  rw [whole_split] at hsum
  simpa [stripped, strip, findAll, List.map_map, Function.comp_def] using hsum

theorem length_stripped (text : String) :
    (stripped text).length + ((findAll text).map String.length).sum = text.length := by
  have hsum := sum_stripped List.length (fun _ _ => List.length_append) text
  simpa only [String.length_toList] using hsum

theorem length_of_mem_findAll {text statement : String} (h : statement ∈ findAll text) :
    13 ≤ statement.length := by
  obtain ⟨found, hfound, rfl⟩ := List.mem_map.mp h
  rw [String.length_ofList]
  exact length_of_mem_statements hfound

theorem length_encode_of_mem_findAll {text statement : String} (h : statement ∈ findAll text) :
    13 ≤ (Utf8.encode statement).length :=
  (length_of_mem_findAll h).trans (Utf8.length_le_length_encode statement)

/-- The bytes of a text are those of the stripped text and those of what is found. -/
theorem length_encode_add_sum (text : String) : (Utf8.encode (stripped text)).length +
    ((findAll text).map fun s => (Utf8.encode s).length).sum = (Utf8.encode text).length := by
  refine sum_stripped (fun cs => (cs.flatMap String.utf8EncodeChar).length) (fun a b => ?_) text
  rw [List.flatMap_append, List.length_append]

/-- **Stripping saves thirteen bytes for each statement** at least. -/
theorem length_encode_stripped (text : String) :
    (Utf8.encode (stripped text)).length + 13 * (findAll text).length ≤
      (Utf8.encode text).length := by
  have hlong : ∀ n ∈ (findAll text).map (fun s => (Utf8.encode s).length), 13 ≤ n := by
    intro n hn
    obtain ⟨statement, hstatement, rfl⟩ := List.mem_map.mp hn
    exact length_encode_of_mem_findAll hstatement
  have hmany := List.card_nsmul_le_sum _ 13 hlong
  rw [List.length_map, Nat.nsmul_eq_mul] at hmany
  have hsum := length_encode_add_sum text
  omega

end Statement

end ConsoleSweep
