import ConsoleSweep.Proofs.Glob.Plain
import ConsoleSweep.Proofs.Text.Utf8

/-!
# Which separators a glob can match

A separator is matched by a wildcard for directories, by `/` itself and by a class that holds it. A
text that has neither `/` nor `**` is read without the first two (`shallow_of_parse`), so what is
left are its classes. `crossings` is how many separators these can match together, and no path that
the glob accepts has more of them (`count_le_of_accepts`).

## Shape of the proof

* `Token.Shallow` is what the tokens of such a text have in common. Reading keeps it, in the open
  choices too, as long as no two stars are pending (`Reading.Shallow`). One star is only pending
  right after a star, which is why the text must not go on with another one.
* The bound is proved one token at a time, by induction on `Token.Shallow`; sequences add their
  bounds up, and a choice has the largest one of its branches.
-/

namespace ConsoleSweep.Glob

mutual

/-- How many separators the classes of a token can match. -/
def Token.crossings : Token → Nat
  | .oneOf negated ranges => if classHolds negated ranges slash then 1 else 0
  | .choice branches => branchesCrossings branches
  | _ => 0

/-- How many separators the classes of a glob can match. -/
def crossings : List Token → Nat
  | [] => 0
  | token :: rest => token.crossings + crossings rest

/-- How many separators the classes of one of several branches can match. -/
def branchesCrossings : List (List Token) → Nat
  | [] => 0
  | branch :: rest => max (crossings branch) (branchesCrossings rest)

end

/-- A token that can match a separator only with a class. -/
inductive Token.Shallow : Token → Prop where
  | literal {c : Char} (h : c ≠ '/') : Shallow (.literal c)
  | one : Shallow .one
  | run : Shallow .run
  | oneOf (negated : Bool) (ranges : List (Char × Char)) : Shallow (.oneOf negated ranges)
  | choice {branches : List (List Token)}
      (h : ∀ branch ∈ branches, ∀ token ∈ branch, token.Shallow) : Shallow (.choice branches)

/-! ## Reading -/

namespace Reading

/-- All that has been read can match a separator only with a class, and no wildcard for directories
is pending. -/
structure Shallow (r : Reading) : Prop where
  tokens : ∀ token ∈ r.tokens, token.Shallow
  done : ∀ group ∈ r.groups, ∀ branch ∈ group.1, ∀ token ∈ branch, token.Shallow
  before : ∀ group ∈ r.groups, ∀ token ∈ group.2, token.Shallow
  single : ∀ before, r.mode ≠ .stars before

/-- A star has just been read, and may be the first of two. -/
def Starred (r : Reading) : Prop := ∃ before, r.mode = .star before

variable {r r' : Reading} {c : Char}

theorem shallow_start : start.Shallow := ⟨nofun, nofun, nofun, nofun⟩

theorem Shallow.push {token : Token} (hr : r.Shallow) (h : token.Shallow) :
    (r.push token).Shallow :=
  ⟨List.forall_mem_cons.mpr ⟨h, hr.tokens⟩, hr.done, hr.before, hr.single⟩

/-- The last character and what is pending may change, as long as it is not two stars. -/
theorem Shallow.goOn (hr : r.Shallow) (last : Option Char) (mode : Mode)
    (hmode : ∀ before, mode ≠ .stars before) : Shallow { r with last, mode } :=
  ⟨hr.tokens, hr.done, hr.before, hmode⟩

theorem shallow_plainStep (hr : r.Shallow) (hc : c ≠ '/') (h : r.plainStep c = .ok r') :
    r'.Shallow ∧ (r'.Starred → c = '*') := by
  obtain ⟨tokens, groups, last, mode⟩ := r
  have hplain := hr.goOn (some c) .plain nofun
  unfold plainStep at h
  dsimp only at h
  split at h
  case h_1 =>
    cases h
    exact ⟨hplain.push .one, nofun⟩
  case h_2 =>
    cases h
    exact ⟨hr.goOn _ _ nofun, fun _ => rfl⟩
  case h_3 =>
    cases h
    exact ⟨hr.goOn _ _ nofun, nofun⟩
  case h_4 =>
    -- the tokens so far wait before a choice that has no branch yet
    cases h
    refine ⟨⟨nofun, ?_, ?_, nofun⟩, nofun⟩
    · exact List.forall_mem_cons.mpr ⟨nofun, hr.done⟩
    · exact List.forall_mem_cons.mpr ⟨hr.tokens, hr.before⟩
  case h_5 =>
    cases groups with
    | nil => cases h
    | cons group groups =>
      cases h
      obtain ⟨hdone, hothers⟩ := List.forall_mem_cons.mp hr.done
      obtain ⟨hbefore, hothers'⟩ := List.forall_mem_cons.mp hr.before
      refine ⟨⟨List.forall_mem_cons.mpr ⟨.choice ?_, hbefore⟩, hothers, hothers', nofun⟩, nofun⟩
      intro branch hbranch token htoken
      obtain ⟨reversed, hreversed, rfl⟩ := List.mem_map.mp hbranch
      rw [List.mem_reverse] at hreversed htoken
      rcases List.mem_cons.mp hreversed with rfl | hreversed
      · exact hr.tokens token htoken
      · exact hdone reversed hreversed token htoken
  case h_6 =>
    cases groups with
    | nil =>
      cases h
      exact ⟨hplain.push (.literal (by decide)), nofun⟩
    | cons group groups =>
      cases h
      obtain ⟨hdone, hothers⟩ := List.forall_mem_cons.mp hr.done
      obtain ⟨hbefore, hothers'⟩ := List.forall_mem_cons.mp hr.before
      refine ⟨⟨nofun, ?_, List.forall_mem_cons.mpr ⟨hbefore, hothers'⟩, nofun⟩, nofun⟩
      exact List.forall_mem_cons.mpr ⟨List.forall_mem_cons.mpr ⟨hr.tokens, hdone⟩, hothers⟩
  case h_7 =>
    cases h
    exact ⟨hr.goOn _ _ nofun, nofun⟩
  case h_8 =>
    cases h
    exact ⟨hplain.push (.literal hc), nofun⟩

theorem shallow_inClassStep {m : ClassReading} (hr : r.Shallow)
    (h : r.inClassStep m c = .ok r') : r'.Shallow ∧ ¬ r'.Starred := by
  unfold inClassStep at h
  cases hclass : classStep m c with
  | error fault =>
    rw [hclass] at h
    cases h
  | ok members =>
    rw [hclass] at h
    cases members with
    | none =>
      cases h
      exact ⟨(hr.goOn (some c) .plain nofun).push (.oneOf _ _), nofun⟩
    | some m' =>
      cases h
      exact ⟨hr.goOn _ _ nofun, nofun⟩

/-- **A character that is no separator is read without one**, unless it is the second of two
stars. -/
theorem shallow_step (hr : r.Shallow) (hc : c ≠ '/') (hstar : r.Starred → c ≠ '*')
    (h : r.step c = .ok r') : r'.Shallow ∧ (r'.Starred → c = '*') := by
  unfold step at h
  split at h
  case h_1 => exact shallow_plainStep hr hc h
  case h_2 =>
    cases h
    exact ⟨(hr.goOn (some c) .plain nofun).push (.literal hc), nofun⟩
  case h_3 before hmode =>
    rw [if_neg (by simpa using hstar ⟨before, hmode⟩)] at h
    exact shallow_plainStep ((hr.goOn r.last .plain nofun).push .run) hc h
  case h_4 before hmode => exact absurd hmode (hr.single before)
  case h_5 =>
    split at h
    · cases h
      exact ⟨hr.goOn _ _ nofun, nofun⟩
    · obtain ⟨hr', hunstarred⟩ := shallow_inClassStep hr h
      exact ⟨hr', fun hstarred => absurd hstarred hunstarred⟩
  case h_6 =>
    obtain ⟨hr', hunstarred⟩ := shallow_inClassStep hr h
    exact ⟨hr', fun hstarred => absurd hstarred hunstarred⟩

/-- A text with neither `/` nor `**` is read without separators. -/
theorem shallow_of_reads {text : List Char} (hr : r.Shallow) (hslash : '/' ∉ text)
    (hstars : ¬ ['*', '*'] <:+: text) (hhead : r.Starred → text.head? ≠ some '*')
    (h : Reads r text r') : r'.Shallow := by
  induction h with
  | nil => exact hr
  | cons hstep _ ih =>
    rw [List.mem_cons, not_or] at hslash
    obtain ⟨hnext, hlast⟩ := shallow_step hr (Ne.symm hslash.1)
      (fun hstarred heq => hhead hstarred (congrArg some heq)) hstep
    refine ih hnext hslash.2 (fun hrest => hstars (List.infix_cons hrest)) ?_
    intro hstarred hsecond
    obtain ⟨rest, rfl⟩ := List.head?_eq_some_iff.mp hsecond
    exact hstars ⟨[], rest, by rw [hlast hstarred]; rfl⟩

theorem shallow_of_finish {glob : List Token} (hr : r.Shallow) (h : r.finish = .ok glob) :
    ∀ token ∈ glob, token.Shallow := by
  unfold finish at h
  have hclose : ∀ {r : Reading}, r.Shallow →
      (if r.groups.isEmpty then .ok r.tokens.reverse else .error .unclosedGroup :
        Except Malformed (List Token)) = .ok glob → ∀ token ∈ glob, token.Shallow := by
    intro r hr hclosed
    split at hclosed
    · cases hclosed
      exact fun token htoken => hr.tokens token (List.mem_reverse.mp htoken)
    · cases hclosed
  dsimp only at h
  split at h
  case h_1 => exact hclose hr h
  case h_3 => exact hclose (hr.push .run) h
  case h_4 before hmode => exact absurd hmode (hr.single before)
  all_goals cases h

end Reading

/-- **A text with neither `/` nor `**` is a glob that can match a separator only with a class.** -/
theorem shallow_of_parse {text : List Char} {glob : List Token} (hslash : '/' ∉ text)
    (hstars : ¬ ['*', '*'] <:+: text) (h : parse text = .ok glob) :
    ∀ token ∈ glob, token.Shallow := by
  obtain ⟨r, hreads, hfinish⟩ := Reading.parse_eq_ok_iff.mp h
  have hr := Reading.shallow_of_reads Reading.shallow_start hslash hstars nofun hreads
  exact Reading.shallow_of_finish hr hfinish

/-! ## Matching -/

variable {u : Bytes}

/-- The encoding of a character has no separator, unless the character is one. -/
theorem slash_not_mem_charBytes {c : Char} (h : c ≠ '/') : slash ∉ charBytes c := by
  intro hmem
  have hvalue := Utf8.toNat_of_mem_encodeChar (by decide) hmem
  exact h (Char.toNat_inj.mp hvalue)

/-- The bytes that tokens match one after the other have no more separators than these together. -/
theorem count_le_crossings {tokens : List Token}
    (htokens : ∀ token ∈ tokens, ∀ u, token.expr.Matches u → u.count slash ≤ token.crossings)
    (h : (tokensExpr tokens).Matches u) : u.count slash ≤ crossings tokens := by
  induction tokens generalizing u with
  | nil =>
    cases h
    exact Nat.zero_le _
  | cons token rest ih =>
    obtain ⟨front, back, rfl, hfront, hback⟩ := h
    obtain ⟨htoken, hrest⟩ := List.forall_mem_cons.mp htokens
    rw [List.count_append, crossings]
    exact Nat.add_le_add (htoken front hfront) (ih hrest hback)

/-- The bytes that a branch matches have no more separators than the largest of the branches. -/
theorem count_le_branchesCrossings {branches : List (List Token)} {e : Expr}
    (hbranches : ∀ branch ∈ branches, ∀ u, (tokensExpr branch).Matches u →
      u.count slash ≤ crossings branch)
    (he : branchesExpr branches = some e) (h : e.Matches u) :
    u.count slash ≤ branchesCrossings branches := by
  induction branches generalizing e with
  | nil => cases he
  | cons branch rest ih =>
    obtain ⟨hbranch, hrest⟩ := List.forall_mem_cons.mp hbranches
    rw [branchesCrossings]
    have hfirst : (tokensExpr branch).Matches u →
        u.count slash ≤ max (crossings branch) (branchesCrossings rest) :=
      fun hu => (hbranch u hu).trans (Nat.le_max_left ..)
    have hothers : ∀ {e}, branchesExpr rest = some e → e.Matches u →
        u.count slash ≤ max (crossings branch) (branchesCrossings rest) :=
      fun he hu => (ih hrest he hu).trans (Nat.le_max_right ..)
    rw [branchesExpr] at he
    split at he
    · exact hothers he h
    · split at he
      next =>
        cases he
        exact hfirst h
      next hsome =>
        cases he
        exact h.elim hfirst (hothers hsome)

/-- What a token matches that can match a separator only with a class. -/
theorem Token.Shallow.count_le {token : Token} (hshallow : token.Shallow)
    (h : token.expr.Matches u) : u.count slash ≤ token.crossings := by
  induction hshallow generalizing u with
  | literal hc =>
    rw [matches_exactly.mp h, List.count_eq_zero.mpr (slash_not_mem_charBytes hc)]
    exact Nat.zero_le _
  | one =>
    obtain ⟨b, hb, rfl⟩ := h
    have hother : b ≠ slash := bne_iff_ne.mp hb
    rw [List.count_singleton, if_neg (by simpa using hother)]
    exact Nat.zero_le _
  | run =>
    rw [List.count_eq_zero.mpr (matches_run.mp h)]
    exact Nat.zero_le _
  | oneOf negated ranges =>
    obtain ⟨b, hb, rfl⟩ := h
    rw [List.count_singleton, Token.crossings]
    split
    next heq =>
      rw [eq_of_beq heq] at hb
      rw [if_pos hb]
    next => exact Nat.zero_le _
  | @choice branches _ ih =>
    rw [Token.crossings]
    cases he : branchesExpr branches with
    | none =>
      rw [Token.expr, he] at h
      cases h
      exact Nat.zero_le _
    | some e =>
      rw [Token.expr, he] at h
      refine count_le_branchesCrossings (fun branch hbranch u hu => ?_) he h
      exact count_le_crossings (fun token htoken u hu => ih branch hbranch token htoken hu) hu

/-- **A glob that can match a separator only with a class** accepts no path with more separators
than its classes can match. -/
theorem count_le_of_accepts {glob : List Token} {path : Bytes}
    (hglob : ∀ token ∈ glob, token.Shallow) (h : accepts glob path = true) :
    path.count slash ≤ crossings glob := by
  have hlast : glob.getLast? ≠ some .leadingDirs := by
    intro hlast
    cases hglob _ (List.mem_of_getLast? hlast)
  rw [accepts, Expr.accepts_iff, expr_of_getLast? hlast] at h
  exact count_le_crossings (fun token htoken u hu => (hglob token htoken).count_le hu) h

end ConsoleSweep.Glob
