import ConsoleSweep.Glob.Engine
import ConsoleSweep.Proofs.Glob.Reading
import ConsoleSweep.Proofs.Sequence
import ConsoleSweep.Proofs.Text.Parts

/-!
# Globs of plain text below any directory

A text in which no character means anything in a glob is read as just these characters. With `**/`
before it, a glob matches the paths whose last parts are those of the text
(`accepts_toPlain_iff`), and with `/**/*` after it the paths in which they stand before the last
part (`accepts_insidePlain_iff`). The engine takes both, as they are not nested deep
(`not_tooNested`).
-/

namespace ConsoleSweep.Glob

/-- The characters that mean something in a glob. -/
def special : List Char := ['*', '?', '[', ']', '\x7b', '\x7d', '\\']

/-- The glob of a plain text below any directory. -/
def toPlain (text : List Char) : List Token := .leadingDirs :: text.map .literal

/-- The glob of everything below a directory of a plain text, at any depth. -/
def insidePlain (text : List Char) : List Token := toPlain text ++ [.innerDirs, .run]

/-! ## Reading -/

namespace Reading

/-- A character that means nothing stands for itself. -/
theorem step_plain {tokens : List Token} {last : Option Char} {c : Char} (hc : c ∉ special) :
    step ⟨tokens, [], last, .plain⟩ c = .ok ⟨.literal c :: tokens, [], some c, .plain⟩ := by
  simp only [special, List.mem_cons, List.not_mem_nil, or_false, not_or] at hc
  obtain ⟨hstar, hone, hclass, -, hopen, hclose, hescape⟩ := hc
  unfold step plainStep
  dsimp only
  split
  · exact absurd rfl hone
  · exact absurd rfl hstar
  · exact absurd rfl hclass
  · exact absurd rfl hopen
  · exact absurd rfl hclose
  · rfl
  · exact absurd rfl hescape
  · rfl

theorem reads_plain (tokens : List Token) (last : Option Char) {text : List Char}
    (h : ∀ c ∈ text, c ∉ special) : ∃ last', Reads ⟨tokens, [], last, .plain⟩ text
      ⟨(text.map .literal).reverse ++ tokens, [], last', .plain⟩ := by
  induction text generalizing tokens last with
  | nil => exact ⟨last, .nil _⟩
  | cons c rest ih =>
    obtain ⟨hc, hrest⟩ := List.forall_mem_cons.mp h
    obtain ⟨last', hreads⟩ := ih (.literal c :: tokens) (some c) hrest
    refine ⟨last', .cons (step_plain hc) ?_⟩
    simpa using hreads

/-- What is known after a plain text below any directory. -/
theorem reads_toPlain {text : List Char} (h : ∀ c ∈ text, c ∉ special) :
    ∃ last, Reads start ('*' :: '*' :: '/' :: text) ⟨(toPlain text).reverse, [], last, .plain⟩ := by
  obtain ⟨last, hreads⟩ := reads_plain [.leadingDirs] (some '/') h
  refine ⟨last, .cons rfl (.cons rfl (.cons rfl ?_))⟩
  rwa [toPlain, List.reverse_cons]

end Reading

variable {text : List Char}

theorem parse_toPlain (h : ∀ c ∈ text, c ∉ special) :
    parse ('*' :: '*' :: '/' :: text) = .ok (toPlain text) := by
  obtain ⟨last, hreads⟩ := Reading.reads_toPlain h
  refine Reading.parse_eq_ok_iff.mpr ⟨_, hreads, ?_⟩
  exact congrArg Except.ok (List.reverse_reverse _)

theorem parse_insidePlain (h : ∀ c ∈ text, c ∉ special) :
    parse ('*' :: '*' :: '/' :: (text ++ ['/', '*', '*', '/', '*'])) = .ok (insidePlain text) := by
  obtain ⟨last, hreads⟩ := Reading.reads_toPlain h
  -- the stars use up the separators at both sides
  have hstars : Reading.Reads ⟨(toPlain text).reverse, [], last, .plain⟩ ['/', '*', '*', '/', '*']
      ⟨.innerDirs :: (toPlain text).reverse, [], some '*', .star (some '/')⟩ :=
    .cons rfl (.cons rfl (.cons rfl (.cons rfl (.cons rfl (.nil _)))))
  refine Reading.parse_eq_ok_iff.mpr ⟨_, Reading.reads_append_iff.mpr ⟨_, hreads, hstars⟩, ?_⟩
  change Except.ok (Token.run :: .innerDirs :: (toPlain text).reverse).reverse = _
  simp [insidePlain]

/-! ## Matching -/

section Matches

variable {u : Bytes}

theorem matches_exactly {bytes : Bytes} : (Expr.exactly bytes).Matches u ↔ u = bytes := by
  induction bytes generalizing u with
  | nil => rfl
  | cons b rest ih =>
    constructor
    · rintro ⟨_, v, rfl, ⟨b', hb, rfl⟩, hv⟩
      rw [eq_of_beq hb, ih.mp hv, List.singleton_append]
    · rintro rfl
      exact ⟨[b], rest, rfl, ⟨b, beq_self_eq_true b, rfl⟩, ih.mpr rfl⟩

theorem matches_literals :
    (tokensExpr (text.map .literal)).Matches u ↔ u = text.flatMap charBytes := by
  induction text generalizing u with
  | nil => rfl
  | cons c rest ih =>
    constructor
    · rintro ⟨u, v, rfl, hu, hv⟩
      rw [matches_exactly.mp hu, ih.mp hv, List.flatMap_cons]
    · rintro rfl
      exact ⟨charBytes c, _, rfl, matches_exactly.mpr rfl, ih.mpr rfl⟩

theorem matches_leadingDirs : Token.leadingDirs.expr.Matches u ↔ Opens slash u := by
  refine or_congr Iff.rfl ?_
  constructor
  · rintro ⟨front, _, rfl, -, b, hb, rfl⟩
    exact ⟨front, by rw [eq_of_beq hb]⟩
  · rintro ⟨front, rfl⟩
    exact ⟨front, [slash], rfl, fun _ _ => rfl, slash, rfl, rfl⟩

theorem matches_innerDirs :
    Token.innerDirs.expr.Matches u ↔ ∃ v, u = slash :: v ∧ Opens slash v := by
  constructor
  · rintro ⟨_, v, rfl, ⟨b, hb, rfl⟩, hv⟩
    exact ⟨v, by rw [eq_of_beq hb]; rfl, matches_leadingDirs.mp hv⟩
  · rintro ⟨v, rfl, hv⟩
    exact ⟨[slash], v, rfl, ⟨slash, rfl, rfl⟩, matches_leadingDirs.mpr hv⟩

theorem matches_run : Token.run.expr.Matches u ↔ slash ∉ u := by
  constructor
  · intro h hslash
    have hin : inName slash = true := h slash hslash
    cases hin
  · intro h b hb
    exact bne_iff_ne.mpr fun heq => h (heq ▸ hb)

theorem matches_toPlain :
    (tokensExpr (toPlain text)).Matches u ↔
      partsAt slash (text.flatMap charBytes) <:+ partsAt slash u := by
  rw [suffix_partsAt_iff]
  constructor
  · rintro ⟨before, v, rfl, hbefore, hv⟩
    exact ⟨before, matches_leadingDirs.mp hbefore, by rw [matches_literals.mp hv]⟩
  · rintro ⟨before, hbefore, rfl⟩
    exact ⟨before, _, rfl, matches_leadingDirs.mpr hbefore, matches_literals.mpr rfl⟩

end Matches

variable {path : Bytes}

/-- **A plain text below any directory** matches the paths that end in its parts. -/
theorem accepts_toPlain_iff (hne : text ≠ []) : accepts (toPlain text) path = true ↔
    partsAt slash (text.flatMap charBytes) <:+ partsAt slash path := by
  have hlast : (toPlain text).getLast? ≠ some .leadingDirs := by
    obtain ⟨front, c, rfl⟩ := List.eq_nil_or_concat text |>.resolve_left hne
    simp [toPlain, List.getLast?_cons]
  rw [accepts, Expr.accepts_iff, expr_of_getLast? hlast, matches_toPlain]

/-- **Everything below a plain text at any depth** are the paths with its parts before the last. -/
theorem accepts_insidePlain_iff : accepts (insidePlain text) path = true ↔
    partsAt slash (text.flatMap charBytes) <:+: (partsAt slash path).dropLast := by
  rw [accepts, Expr.accepts_iff, expr_of_getLast? (by simp [insidePlain]), insidePlain,
    matches_tokensExpr_append, infix_dropLast_partsAt_iff (partsAt_ne_nil _ _)]
  constructor
  · rintro ⟨before, _, rfl, hbefore, inner, _, rfl, hinner, last, _, rfl, -, rfl⟩
    obtain ⟨v, rfl, -⟩ := matches_innerDirs.mp hinner
    exact ⟨before, v ++ (last ++ []), rfl, matches_toPlain.mp hbefore⟩
  · rintro ⟨before, after, rfl, hbefore⟩
    obtain ⟨inner, last, hinner, hlast, rfl⟩ := exists_opens_append slash after
    refine ⟨before, slash :: inner ++ last, rfl, matches_toPlain.mpr hbefore, ?_⟩
    refine ⟨slash :: inner, last, rfl, matches_innerDirs.mpr ⟨inner, rfl, hinner⟩, ?_⟩
    exact ⟨last, [], (List.append_nil last).symm, matches_run.mpr hlast, rfl⟩

/-! ## The engine -/

theorem mem_partDepths {glob : List Token} {d : Nat} (h : d ∈ partDepths glob) :
    ∃ token ∈ glob, d ∈ token.partDepths := by
  induction glob with
  | nil => cases h
  | cons token rest ih =>
    rw [partDepths, List.mem_append] at h
    rcases h with h | h
    · exact ⟨token, List.mem_cons_self, h⟩
    · obtain ⟨other, hother, hd⟩ := ih h
      exact ⟨other, List.mem_cons_of_mem _ hother, hd⟩

/-- A glob whose tokens are not nested deep is not nested deep either. -/
theorem not_tooNested {glob : List Token} (h : ∀ token ∈ glob, ∀ d ∈ token.partDepths, d ≤ 4) :
    tooNested glob = false := by
  have hdepth : depth glob ≤ 5 := by
    have hparts : (partDepths glob).foldl max 0 ≤ 4 := by
      refine foldl_max_le (by decide) fun d hd => ?_
      obtain ⟨token, htoken, hd⟩ := mem_partDepths hd
      exact h token htoken d hd
    unfold depth
    split <;> omega
  exact decide_eq_false (Nat.not_lt.mpr (hdepth.trans (by decide)))

theorem partDepths_insidePlain {token : Token} (htoken : token ∈ insidePlain text) :
    ∀ d ∈ token.partDepths, d ≤ 4 := by
  rw [insidePlain, toPlain, List.cons_append, List.mem_cons, List.mem_append,
    List.mem_map] at htoken
  rcases htoken with rfl | ⟨c, -, rfl⟩ | hlast
  · simp [Token.partDepths]
  · simp [Token.partDepths]
  · simp only [List.mem_cons, List.not_mem_nil, or_false] at hlast
    rcases hlast with rfl | rfl <;> simp [Token.partDepths]

theorem not_tooNested_insidePlain : tooNested (insidePlain text) = false :=
  not_tooNested fun _ => partDepths_insidePlain

theorem not_tooNested_toPlain : tooNested (toPlain text) = false :=
  not_tooNested fun _ htoken => partDepths_insidePlain (List.mem_append_left _ htoken)

/-- The engine only refuses globs that are nested too deep, whatever the others are. -/
theorem refused?_eq_none_iff {globs : List (List Token)} : refused? globs = none ↔
    ∀ glob ∈ globs, tooNested glob = true → shape glob ≠ .extended ∧ shape glob ≠ .general := by
  unfold refused?
  cases hfind : globs.find? fun glob => shape glob == .extended && tooNested glob with
  | some glob =>
    have hfound := List.find?_some hfind
    rw [Bool.and_eq_true, beq_iff_eq] at hfound
    constructor
    · nofun
    · intro h
      exact absurd hfound.1 (h glob (List.mem_of_find?_eq_some hfind) hfound.2).1
  | none =>
    rw [List.find?_eq_none] at hfind
    dsimp only
    rw [Option.map_eq_none_iff, List.findIdx?_eq_none_iff]
    constructor
    · intro h glob hglob hnested
      constructor
      · intro hshape
        exact hfind glob hglob (by simp [hshape, hnested])
      · intro hshape
        have hkept := h glob (List.mem_filter.mpr ⟨hglob, by simp [hshape]⟩)
        rw [hnested] at hkept
        cases hkept
    · intro h glob hglob
      obtain ⟨hglob, hshape⟩ := List.mem_filter.mp hglob
      by_contra hnested
      exact (h glob hglob (by simpa using hnested)).2 (eq_of_beq hshape)

/-- More globs that are not nested deep change nothing about that. -/
theorem refused?_append {globs others : List (List Token)} (h : refused? globs = none)
    (hothers : ∀ glob ∈ others, tooNested glob = false) : refused? (globs ++ others) = none := by
  rw [refused?_eq_none_iff] at h ⊢
  intro glob hglob hnested
  rcases List.mem_append.mp hglob with hglob | hglob
  · exact h glob hglob hnested
  · rw [hothers glob hglob] at hnested
    cases hnested

end ConsoleSweep.Glob
