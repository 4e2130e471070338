import ConsoleSweep.Glob.Reading
import ConsoleSweep.Proofs.Glob.Matching

/-!
# Globs that end in `/**`

`describes` is what a text matches that is read as a glob and as nothing else. A line that ends in
`/**` is read as if it went on with `/*`, and that only matches less
(`describes_of_accepts_below`).

## Shape of the proof

* `Reads` is reading as a relation between what is known before and after some characters; it is
  composed and taken apart along the text.
* After a `/` nothing is pending, or the text is within a class, which neither `*` nor `/` closes
  (`plain_or_class_of_step_slash`). So both texts end in the same way, and what the stars have
  become is known (`tokens_of_below`).
* `Alone` is the invariant that a leading `**` is the only token until another one follows. It is
  needed as `**/` matches nothing that does not end in a separator unless it is the whole glob.
-/

namespace ConsoleSweep.Glob

/-- Whether a text, read as a glob, matches the bytes of a path. -/
def describes (text : List Char) (path : Bytes) : Bool :=
  match parse text with
  | .ok glob => accepts glob path
  | .error _ => false

theorem describes_of_parse {text : List Char} {glob : List Token} {path : Bytes}
    (h : parse text = .ok glob) : describes text path = accepts glob path := by
  rw [describes, h]

namespace Reading

/-! ## Reading as a relation -/

/-- Reading some characters without a fault. -/
inductive Reads : Reading → List Char → Reading → Prop where
  | nil (r : Reading) : Reads r [] r
  | cons {r r' r'' : Reading} {c : Char} {text : List Char} (h : r.step c = .ok r')
      (h' : Reads r' text r'') : Reads r (c :: text) r''

variable {r r' r'' : Reading} {c : Char}

theorem foldlM_eq_ok_iff {text : List Char} :
    text.foldlM step r = .ok r' ↔ Reads r text r' := by
  induction text generalizing r with
  | nil =>
    constructor
    · intro h
      cases h
      exact .nil _
    · intro h
      cases h
      rfl
  | cons c rest ih =>
    rw [List.foldlM_cons]
    cases hstep : r.step c with
    | error fault =>
      constructor
      · nofun
      · rintro (_ | ⟨h, -⟩)
        rw [hstep] at h
        cases h
    | ok next =>
      constructor
      · exact fun h => .cons hstep (ih.mp h)
      · rintro (_ | ⟨h, h'⟩)
        rw [hstep] at h
        cases h
        exact ih.mpr h'

theorem reads_append_iff {text text' : List Char} :
    Reads r (text ++ text') r'' ↔ ∃ r', Reads r text r' ∧ Reads r' text' r'' := by
  constructor
  · intro h
    induction text generalizing r with
    | nil => exact ⟨r, .nil r, h⟩
    | cons c rest ih =>
      cases h with
      | cons hstep hrest =>
        obtain ⟨middle, hfront, hback⟩ := ih hrest
        exact ⟨middle, .cons hstep hfront, hback⟩
  · rintro ⟨middle, hfront, hback⟩
    induction hfront with
    | nil => exact hback
    | cons hstep _ ih => exact .cons hstep (ih hback)

theorem parse_eq_ok_iff {text : List Char} {glob : List Token} :
    parse text = .ok glob ↔ ∃ r, Reads start text r ∧ r.finish = .ok glob := by
  unfold parse
  cases hread : text.foldlM step start with
  | error fault =>
    constructor
    · nofun
    · rintro ⟨r, hreads, -⟩
      rw [foldlM_eq_ok_iff.mpr hreads] at hread
      cases hread
  | ok r =>
    constructor
    · exact fun h => ⟨r, foldlM_eq_ok_iff.mp hread, h⟩
    · rintro ⟨r', hreads, hfinish⟩
      rw [foldlM_eq_ok_iff.mpr hreads] at hread
      cases hread
      exact hfinish

/-! ## Within a class -/

/-- Only `]` closes a class. -/
theorem classStep_ne_none {m : ClassReading} (hc : c ≠ ']') : classStep m c ≠ .ok none := by
  have hstretch : ∀ m' : ClassReading, (stretch m' c).map some ≠ .ok none := by
    intro m'
    cases stretch m' c <;> nofun
  unfold classStep
  simp only [beq_false_of_ne hc, Bool.false_and, Bool.false_eq_true, if_false]
  split
  · split
    · exact hstretch _
    · nofun
  · split
    · exact hstretch _
    · nofun

theorem class_of_inClassStep {m : ClassReading} (hc : c ≠ ']') (h : r.inClassStep m c = .ok r') :
    ∃ m', r'.mode = .inClass m' := by
  unfold inClassStep at h
  cases hclass : classStep m c with
  | error fault =>
    rw [hclass] at h
    cases h
  | ok members =>
    cases members with
    | none => exact absurd hclass (classStep_ne_none hc)
    | some m' =>
      rw [hclass] at h
      cases h
      exact ⟨m', rfl⟩

theorem class_of_step {m : ClassReading} (hmode : r.mode = .inClass m) (hc : c ≠ ']')
    (h : r.step c = .ok r') : ∃ m', r'.mode = .inClass m' := by
  unfold step at h
  rw [hmode] at h
  exact class_of_inClassStep hc h

theorem class_of_reads {m : ClassReading} {text : List Char} (hmode : r.mode = .inClass m)
    (htext : ']' ∉ text) (h : Reads r text r') : ∃ m', r'.mode = .inClass m' := by
  induction h generalizing m with
  | nil => exact ⟨m, hmode⟩
  | cons hstep _ ih =>
    rw [List.mem_cons, not_or] at htext
    obtain ⟨m', hmode'⟩ := class_of_step hmode (Ne.symm htext.1) hstep
    exact ih hmode' htext.2

/-! ## A leading wildcard stands alone -/

/-- A leading wildcard for directories is the only token, as long as it is the last one read. -/
def Alone (r : Reading) : Prop := ∀ before, r.tokens = .leadingDirs :: before → before = []

theorem alone_start : start.Alone := by
  intro before hbefore
  cases hbefore

theorem alone_push {token : Token} (h : token ≠ .leadingDirs) : (r.push token).Alone := by
  intro before hbefore
  exact absurd (List.cons_eq_cons.mp hbefore).1 h

theorem alone_plainStep (ha : r.Alone) (h : r.plainStep c = .ok r') : r'.Alone := by
  unfold plainStep at h
  dsimp only at h
  split at h
  -- opening a choice starts a branch without tokens, closing one adds a token to those before it
  case h_4 =>
    cases h
    exact fun _ hbefore => nomatch hbefore
  case h_5 =>
    split at h
    · cases h
    · cases h
      exact fun _ hbefore => nomatch hbefore
  case h_6 =>
    split at h
    · cases h
      exact alone_push nofun
    · cases h
      exact fun _ hbefore => nomatch hbefore
  case h_1 | h_8 =>
    cases h
    exact alone_push nofun
  case h_2 | h_3 | h_7 =>
    cases h
    exact ha

theorem component_eq_leadingDirs_iff {previous : Token} {closing : Bool} :
    component previous closing = .leadingDirs ↔ previous = .leadingDirs := by
  cases previous <;> cases closing <;> simp [component]

/-- Stars become a token, and nothing is pending after them. It is a leading wildcard only if it is
the first token or takes the place of one. -/
theorem settleStars_cases (r : Reading) (before after : Option Char) : ∃ token tokens,
    (r.settleStars before after).1 = { r with tokens := token :: tokens, mode := .plain } ∧
      (token = .leadingDirs → tokens = [] ∨ r.tokens = .leadingDirs :: tokens) := by
  obtain ⟨tokens, groups, last, mode⟩ := r
  unfold settleStars
  cases tokens with
  | nil =>
    simp only
    split
    · exact ⟨.leadingDirs, [], rfl, fun _ => .inl rfl⟩
    · exact ⟨.run, [.run], rfl, nofun⟩
  | cons previous tokens =>
    have hcomponent : ∀ closing, component previous closing = .leadingDirs →
        tokens = [] ∨ previous :: tokens = .leadingDirs :: tokens := by
      intro closing hleading
      rw [component_eq_leadingDirs_iff] at hleading
      exact .inr (by rw [hleading])
    simp only
    split
    · split
      · exact ⟨_, tokens, rfl, hcomponent false⟩
      · split
        · exact ⟨_, tokens, rfl, hcomponent true⟩
        · exact ⟨.run, .run :: previous :: tokens, rfl, nofun⟩
    · exact ⟨.run, .run :: previous :: tokens, rfl, nofun⟩

theorem alone_settleStars (ha : r.Alone) (before after : Option Char) :
    (r.settleStars before after).1.Alone := by
  obtain ⟨token, tokens, hsettled, hleading⟩ := r.settleStars_cases before after
  intro others hothers
  rw [hsettled] at hothers
  obtain ⟨hfirst, rfl⟩ := List.cons_eq_cons.mp hothers
  rcases hleading hfirst with hnone | hreplaced
  · exact hnone
  · exact ha _ hreplaced

theorem alone_inClassStep {m : ClassReading} (ha : r.Alone) (h : r.inClassStep m c = .ok r') :
    r'.Alone := by
  unfold inClassStep at h
  cases hclass : classStep m c with
  | error fault =>
    rw [hclass] at h
    cases h
  | ok members =>
    rw [hclass] at h
    cases members with
    | none =>
      cases h
      exact alone_push nofun
    | some m' =>
      cases h
      exact ha

theorem alone_step (ha : r.Alone) (h : r.step c = .ok r') : r'.Alone := by
  unfold step at h
  split at h
  case h_1 => exact alone_plainStep ha h
  case h_2 =>
    cases h
    exact alone_push nofun
  case h_3 =>
    split at h
    · cases h
      exact ha
    · exact alone_plainStep (alone_push (by nofun)) h
  case h_4 before hmode =>
    have hsettled := alone_settleStars ha before (some c)
    split at h
    next settled hsettle =>
      rw [hsettle] at hsettled
      cases h
      exact hsettled
    next settled hsettle =>
      rw [hsettle] at hsettled
      exact alone_plainStep hsettled h
  case h_5 =>
    split at h
    · cases h
      exact ha
    · exact alone_inClassStep ha h
  case h_6 => exact alone_inClassStep ha h

theorem alone_of_reads {text : List Char} (ha : r.Alone) (h : Reads r text r') : r'.Alone := by
  induction h with
  | nil => exact ha
  | cons hstep _ ih => exact ih (alone_step ha hstep)

/-! ## After a separator -/

/-- After a separator nothing is pending, or the text is within a class. -/
theorem plain_or_class_of_step_slash (h : r.step '/' = .ok r') :
    (r'.mode = .plain ∧ r'.last = some '/' ∧ r'.tokens ≠ []) ∨ ∃ m, r'.mode = .inClass m := by
  unfold step at h
  split at h
  case h_1 =>
    cases h
    exact .inl ⟨rfl, rfl, nofun⟩
  case h_2 =>
    cases h
    exact .inl ⟨rfl, rfl, nofun⟩
  case h_3 =>
    cases h
    exact .inl ⟨rfl, rfl, nofun⟩
  case h_4 before hmode =>
    obtain ⟨token, tokens, hsettled, -⟩ := r.settleStars_cases before (some '/')
    split at h
    next settled hsettle =>
      rw [hsettle] at hsettled
      cases hsettled
      cases h
      exact .inl ⟨rfl, rfl, nofun⟩
    next =>
      cases h
      exact .inl ⟨rfl, rfl, nofun⟩
  case h_5 => exact .inr (class_of_inClassStep (by decide) h)
  case h_6 => exact .inr (class_of_inClassStep (by decide) h)

theorem finish_of_class {m : ClassReading} (hmode : r.mode = .inClass m) :
    r.finish = .error .unclosedClass := by
  unfold finish
  rw [hmode]

/-- Where nothing is pending after a separator, `**/*` and `**` end a glob with the same tokens but
for what the stars become. -/
theorem tokens_of_below {front : List Char} {glob : List Token}
    (h : parse (front ++ ['/', '*', '*', '/', '*']) = .ok glob) :
    ∃ before previous,
      parse (front ++ ['/', '*', '*']) = .ok (before ++ [component previous true]) ∧
      glob = before ++ [component previous false, .run] ∧
      (previous = .leadingDirs → before = []) := by
  rw [parse_eq_ok_iff] at h
  obtain ⟨last, hreads, hfinish⟩ := h
  obtain ⟨r, hfront, hend⟩ := reads_append_iff.mp hreads
  cases hend with
  | @cons _ r' _ _ _ hslash hstars =>
    have halone : r'.Alone := alone_step (alone_of_reads alone_start hfront) hslash
    rcases plain_or_class_of_step_slash hslash with ⟨hmode, hlast, htokens⟩ | ⟨m, hmode⟩
    · obtain ⟨tokens, groups, last', mode⟩ := r'
      cases hmode
      cases hlast
      cases tokens with
      | nil => exact absurd rfl htokens
      | cons previous tokens =>
        -- the longer text leaves a run after the separator that the stars have used up
        have hlonger : last = ⟨component previous false :: tokens, groups, some '*',
            .star (some '/')⟩ := by
          have hread := foldlM_eq_ok_iff.mpr hstars
          cases hread
          rfl
        have hgroups : groups = [] := by
          cases groups with
          | nil => rfl
          | cons group groups =>
            rw [hlonger] at hfinish
            cases hfinish
        subst hgroups
        have hshorter : Reads start (front ++ ['/', '*', '*'])
            ⟨previous :: tokens, [], some '*', .stars (some '/')⟩ := by
          refine reads_append_iff.mpr ⟨r, hfront, .cons hslash ?_⟩
          exact .cons rfl (.cons rfl (.nil _))
        refine ⟨tokens.reverse, previous, parse_eq_ok_iff.mpr ⟨_, hshorter, ?_⟩, ?_, ?_⟩
        · rw [← List.reverse_cons]
          rfl
        · rw [hlonger] at hfinish
          cases hfinish
          simp [push]
        · intro hprevious
          rw [halone tokens (by rw [hprevious])]
          rfl
    · -- the class is never closed
      obtain ⟨m', hmode'⟩ := class_of_reads hmode (by decide) hstars
      rw [finish_of_class hmode'] at hfinish
      cases hfinish

end Reading

/-! ## What the longer text matches -/

/-- The tokens of a glob match one part of the bytes after the other. -/
theorem matches_tokensExpr_append {before after : List Token} {text : Bytes} :
    (tokensExpr (before ++ after)).Matches text ↔
      ∃ u v, text = u ++ v ∧ (tokensExpr before).Matches u ∧ (tokensExpr after).Matches v := by
  induction before generalizing text with
  | nil =>
    constructor
    · exact fun h => ⟨[], text, rfl, rfl, h⟩
    · rintro ⟨_, v, rfl, rfl, h⟩
      exact h
  | cons token rest ih =>
    constructor
    · rintro ⟨u, w, rfl, hu, hw⟩
      obtain ⟨v, v', rfl, hv, hv'⟩ := ih.mp hw
      exact ⟨u ++ v, v', (List.append_assoc ..).symm, ⟨u, v, rfl, hu, hv⟩, hv'⟩
    · rintro ⟨_, v', rfl, ⟨u, v, rfl, hu, hv⟩, hv'⟩
      exact ⟨u, v ++ v', List.append_assoc .., hu, ih.mpr ⟨v, v', rfl, hv, hv'⟩⟩

/-- Only `**` alone is not matched token by token. -/
theorem expr_of_getLast? {glob : List Token} (h : glob.getLast? ≠ some .leadingDirs) :
    expr glob = tokensExpr glob := by
  unfold expr
  split
  · exact absurd rfl h
  · rfl

/-- A component of stars that is not the first of a glob is a closing one if it is the last. -/
theorem component_of_ne {previous : Token} (h : previous ≠ .leadingDirs) :
    Reading.component previous true = .trailingDirs ∧
      (Reading.component previous false = .trailingDirs ∨
        Reading.component previous false = .innerDirs) := by
  cases previous <;> simp [Reading.component] at h ⊢

/-- A component of stars that is not the first of a glob starts with a separator. -/
theorem exists_slash_of_component {previous : Token} (h : previous ≠ .leadingDirs) {u : Bytes}
    (hu : (Reading.component previous false).expr.Matches u) : ∃ rest, u = slash :: rest := by
  have hseparated : ∃ e, (Expr.seq separator e).Matches u := by
    rcases (component_of_ne h).2 with hcomponent | hcomponent
    · rw [hcomponent] at hu
      exact ⟨_, hu⟩
    · rw [hcomponent] at hu
      exact ⟨_, hu⟩
  obtain ⟨e, _, rest, rfl, ⟨b, hb, rfl⟩, -⟩ := hseparated
  exact ⟨rest, by rw [eq_of_beq hb]; rfl⟩

/-- What a glob matches that ends in `/**` and `/*`, it matches without the `/*`. -/
theorem matches_below {before : List Token} {previous : Token} {path : Bytes}
    (halone : previous = .leadingDirs → before = [])
    (h : (expr (before ++ [Reading.component previous false, .run])).Matches path) :
    (expr (before ++ [Reading.component previous true])).Matches path := by
  by_cases hleading : previous = .leadingDirs
  · rw [halone hleading, hleading]
    exact fun b _ => rfl
  · obtain ⟨htrailing, -⟩ := component_of_ne hleading
    rw [expr_of_getLast? (by simp)] at h
    rw [expr_of_getLast? (by simp [htrailing]), htrailing]
    obtain ⟨u, v, rfl, hu, w, v', rfl, hw, -⟩ := matches_tokensExpr_append.mp h
    obtain ⟨rest, rfl⟩ := exists_slash_of_component hleading hw
    -- everything from that separator on is below it
    have hbelow : (tokensExpr [.trailingDirs]).Matches (slash :: rest ++ v') := by
      refine ⟨slash :: rest ++ v', [], by simp, ?_, rfl⟩
      exact ⟨[slash], rest ++ v', rfl, ⟨slash, by decide, rfl⟩, fun b _ => rfl⟩
    exact matches_tokensExpr_append.mpr ⟨u, _, rfl, hu, hbelow⟩

/-- **What a glob ending in `/**` matches with `/*` after it, it matches by itself.** -/
theorem describes_of_accepts_below {front : List Char} {glob : List Token} {path : Bytes}
    (hparse : parse (front ++ ['/', '*', '*', '/', '*']) = .ok glob)
    (haccepts : accepts glob path = true) :
    describes (front ++ ['/', '*', '*']) path = true := by
  obtain ⟨before, previous, hshorter, rfl, halone⟩ := Reading.tokens_of_below hparse
  rw [describes_of_parse hshorter]
  exact (Expr.accepts_iff _ _).mpr (matches_below halone ((Expr.accepts_iff _ _).mp haccepts))

/-- A backslash before a character that means nothing in a glob changes nothing. -/
theorem parse_escaped {c : Char} (h : c = '!' ∨ c = '#') (rest : List Char) :
    parse ('\\' :: c :: rest) = parse (c :: rest) := by
  rcases h with rfl | rfl
  · rfl
  · rfl

end ConsoleSweep.Glob
