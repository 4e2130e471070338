import ConsoleSweep.Proofs.Options.History

/-!
# Names without blanks and separators at their ends

A glob excludes something only if the name in it is one that a directory can have, without the
blanks and separators that a user may have put around it (`Normal`). Blanks are dropped first and
separators after them, so blanks between those stay. Just the exclusions that have their blanks
outside their separators (`Framed`) give normal names or none (`framed_iff`), and just if all
exclusions of a run do are its names normal (`normal_excludeGlobs_iff`). Then blank exclusions are
dropped, alike ones count once, and the names may be given again.
-/

namespace ConsoleSweep.Options

/-- Whether a character is a blank or a separator, neither of which a name should end in. -/
def isMargin (c : Char) : Bool := isBlank c || c == '/'

/-- A name that neither starts nor ends with a blank or a separator. -/
structure Normal (name : List Char) : Prop where
  ne_nil : name ≠ []
  first : ∀ c ∈ name.head?, isMargin c = false
  last : ∀ c ∈ name.getLast?, isMargin c = false

/-- A given exclusion with a normal name or nothing in it, separators around that, and blanks around
those. -/
def Framed (given : String) : Prop :=
  ∃ front inner core inner' back, given.toList = front ++ (inner ++ core ++ inner') ++ back ∧
    (∀ c ∈ front ++ back, isBlank c) ∧ (∀ c ∈ inner ++ inner', c = '/') ∧
    (core = [] ∨ Normal core)

/-- Two given exclusions that differ in the blanks and separators at their ends only. -/
def Alike (given given' : String) : Prop :=
  ∃ core lead trail lead' trail', given.toList = lead ++ core ++ trail ∧
    given'.toList = lead' ++ core ++ trail' ∧ ∀ c ∈ lead ++ trail ++ (lead' ++ trail'), isMargin c

section Margin

variable {c : Char}

theorem isMargin_of_isBlank (h : isBlank c) : isMargin c := by
  rw [isMargin, h, Bool.true_or]

theorem isMargin_eq_false_iff : isMargin c = false ↔ isBlank c = false ∧ c ≠ '/' := by
  rw [isMargin, Bool.or_eq_false_iff, beq_eq_false_iff_ne]

end Margin

variable {o : Options} {given given' : String} {name : List Char}

/-- Whether a name is normal can be decided from its ends. -/
theorem normal_iff : Normal name ↔ name ≠ [] ∧ name.head?.all (isMargin · = false) ∧
    name.getLast?.all (isMargin · = false) := by
  simp only [Option.all_eq_true, decide_eq_true_eq]
  exact ⟨fun h => ⟨h.ne_nil, h.first, h.last⟩, fun h => ⟨h.1, h.2.1, h.2.2⟩⟩

instance : DecidablePred Normal := fun _ => decidable_of_iff _ normal_iff.symm

/-! ## What a framed exclusion stands for -/

/-- Nothing, or a normal name, has neither blanks nor separators at its ends. -/
theorem ends_of_core {core : List Char} (h : core = [] ∨ Normal core) :
    (∀ c ∈ core.head?, isMargin c = false) ∧ ∀ c ∈ core.getLast?, isMargin c = false := by
  rcases h with rfl | h
  · exact ⟨nofun, nofun⟩
  · exact ⟨h.first, h.last⟩

/-- Separators keep blanks outside: neither they nor the name between them end in one. -/
theorem not_isBlank_of_ends {inner core inner' : List Char}
    (hslashes : ∀ c ∈ inner ++ inner', c = '/') (hcore : core = [] ∨ Normal core) :
    (∀ c ∈ (inner ++ core ++ inner').head?, isBlank c = false) ∧
      ∀ c ∈ (inner ++ core ++ inner').getLast?, isBlank c = false := by
  obtain ⟨hinner, hinner'⟩ := List.forall_mem_append.mp hslashes
  obtain ⟨hfirst, hlast⟩ := ends_of_core hcore
  have hslash : ∀ c, c = '/' → isBlank c = false := by
    rintro c rfl
    decide
  constructor
  · refine forall_mem_head?_append (forall_mem_head?_append ?_ ?_) ?_
    · exact fun c hc => hslash c (hinner c (List.mem_of_head? hc))
    · exact fun c hc => (isMargin_eq_false_iff.mp (hfirst c hc)).1
    · exact fun c hc => hslash c (hinner' c (List.mem_of_head? hc))
  · refine forall_mem_getLast?_append (forall_mem_getLast?_append ?_ ?_) ?_
    · exact fun c hc => hslash c (hinner c (List.mem_of_getLast? hc))
    · exact fun c hc => (isMargin_eq_false_iff.mp (hlast c hc)).1
    · exact fun c hc => hslash c (hinner' c (List.mem_of_getLast? hc))

/-- In a framed exclusion, blanks and separators may as well be dropped alike. -/
theorem Framed.trimEnds_eq (h : Framed given) :
    trimEnds (· == '/') (trimEnds isBlank given.toList) = trimEnds isMargin given.toList := by
  obtain ⟨front, inner, core, inner', back, hgiven, hblanks, hslashes, hcore⟩ := h
  obtain ⟨hfront, hback⟩ := List.forall_mem_append.mp hblanks
  obtain ⟨hinner, hinner'⟩ := List.forall_mem_append.mp hslashes
  obtain ⟨hfirst, hlast⟩ := ends_of_core hcore
  obtain ⟨hopen, hclose⟩ := not_isBlank_of_ends hslashes hcore
  have hwithin : Trims isBlank given.toList (inner ++ core ++ inner') :=
    ⟨⟨front, back, hgiven, hfront, hback⟩, hopen, hclose⟩
  have hcut : trimEnds (· == '/') (inner ++ core ++ inner') = core :=
    trimEnds_append (fun c hc => beq_iff_eq.mpr (hinner c hc))
      (fun c hc => beq_iff_eq.mpr (hinner' c hc))
      (fun c hc => beq_false_of_ne (isMargin_eq_false_iff.mp (hfirst c hc)).2)
      (fun c hc => beq_false_of_ne (isMargin_eq_false_iff.mp (hlast c hc)).2)
  have hmargin : Trims isMargin (inner ++ core ++ inner') core :=
    ⟨⟨inner, inner', rfl, fun c hc => hinner c hc ▸ rfl, fun c hc => hinner' c hc ▸ rfl⟩,
      hfirst, hlast⟩
  rw [hwithin.eq, hcut, hgiven]
  exact (hmargin.extend (fun c hc => isMargin_of_isBlank (hfront c hc))
    fun c hc => isMargin_of_isBlank (hback c hc)).eq.symm

theorem Framed.standsFor_iff (h : Framed given) :
    StandsFor given name ↔ trimEnds isMargin given.toList = name ∧ name ≠ [] := by
  rw [Options.standsFor_iff, h.trimEnds_eq]

/-- A framed exclusion of blanks and separators only stands for no name. -/
theorem Framed.excludedName?_eq_none (h : Framed given) (hblank : ∀ c ∈ given.toList, isMargin c) :
    excludedName? given = none := by
  have hnil : trimEnds isMargin given.toList = [] :=
    Trims.eq ⟨⟨given.toList, [], by simp, hblank, nofun⟩, nofun, nofun⟩
  refine Option.eq_none_iff_forall_ne_some.mpr fun name hname => ?_
  obtain ⟨hleft, hne⟩ := h.standsFor_iff.mp (excludedName?_eq_some_iff.mp hname)
  exact hne (hleft ▸ hnil)

/-- **Just the framed exclusions** give normal names, or none. -/
theorem framed_iff : Framed given ↔ ∀ name, StandsFor given name → Normal name := by
  constructor
  · intro h name hname
    obtain ⟨htrim, hne⟩ := h.standsFor_iff.mp hname
    have htrims := trims_iff.mpr htrim
    exact ⟨hne, htrims.first, htrims.last⟩
  · intro h
    obtain ⟨front, back, hgiven, hfront, hback⟩ := exists_trimEnds isBlank given.toList
    obtain ⟨inner, inner', hmiddle, hinner, hinner'⟩ :=
      exists_trimEnds (· == '/') (trimEnds isBlank given.toList)
    refine ⟨front, inner, _, inner', back, hmiddle ▸ hgiven,
      List.forall_mem_append.mpr ⟨hfront, hback⟩,
      List.forall_mem_append.mpr ⟨fun c hc => beq_iff_eq.mp (hinner c hc),
        fun c hc => beq_iff_eq.mp (hinner' c hc)⟩, ?_⟩
    exact Classical.or_iff_not_imp_left.mpr fun hne => h _ (Options.standsFor_iff.mpr ⟨rfl, hne⟩)

/-- A normal name is framed by nothing, and stands for itself. -/
theorem Normal.framed (h : Normal given.toList) : Framed given :=
  ⟨[], [], given.toList, [], [], by simp, by simp, by simp, .inr h⟩

theorem Normal.standsFor (h : Normal given.toList) : StandsFor given given.toList :=
  h.framed.standsFor_iff.mpr ⟨trimEnds_eq_self h.first h.last, h.ne_nil⟩

theorem Alike.trimEnds_eq (h : Alike given given') :
    trimEnds isMargin given.toList = trimEnds isMargin given'.toList := by
  obtain ⟨core, lead, trail, lead', trail', hgiven, hgiven', hmargin⟩ := h
  simp only [List.forall_mem_append] at hmargin
  have hcore := trims_trimEnds isMargin core
  rw [hgiven, hgiven', (hcore.extend hmargin.1.1 hmargin.1.2).eq,
    (hcore.extend hmargin.2.1 hmargin.2.2).eq]

/-- Framed exclusions that are alike stand for the same name. -/
theorem Framed.excludedName?_eq (h : Framed given) (h' : Framed given')
    (halike : Alike given given') : excludedName? given = excludedName? given' := by
  refine Option.ext fun name => ?_
  rw [excludedName?_eq_some_iff, excludedName?_eq_some_iff, h.standsFor_iff, h'.standsFor_iff,
    halike.trimEnds_eq]

/-! ## The globs of framed exclusions -/

/-- Built-in names are normal. -/
theorem normal_builtin : ∀ name ∈ builtinExcludes, Normal name.toList := by decide

/-- All names of a run are normal just if all its exclusions are framed. -/
theorem forall_normal_iff : (∀ glob ∈ o.excludeGlobs, ∃ name, glob = globFor name ∧ Normal name) ↔
    ∀ given ∈ o.exclude, Framed given := by
  constructor
  · intro h given hgiven
    refine framed_iff.mpr fun name hname => ?_
    obtain ⟨name', hglob, hnormal⟩ :=
      h (globFor name) (mem_excludeGlobs_iff.mpr ⟨given, .inr hgiven, name, hname, rfl⟩)
    rwa [globFor_injective hglob]
  · intro h glob hglob
    obtain ⟨given, hgiven, name, hname, rfl⟩ := mem_excludeGlobs_iff.mp hglob
    have hframed : Framed given :=
      hgiven.elim (fun hbuiltin => (normal_builtin given hbuiltin).framed) (h given)
    exact ⟨name, rfl, framed_iff.mp hframed name hname⟩

/-- Normal names that are left out already may be given again. -/
theorem excludeGlobs_again (h : ∀ given ∈ o.exclude, Framed given) {names : List String}
    (hnames : ∀ name ∈ names, globFor name.toList ∈ o.excludeGlobs) :
    (o.withExcludes names).excludeGlobs = o.excludeGlobs := by
  refine excludeGlobs_withExcludes_of_mem fun given hgiven glob hyields => ?_
  obtain ⟨name, hglob, hnormal⟩ := forall_normal_iff.mpr h _ (hnames given hgiven)
  rw [← globFor_injective hglob] at hnormal
  have hself : Yields given (globFor given.toList) := ⟨_, hnormal.standsFor, rfl⟩
  rw [hyields.unique hself]
  exact hnames given hgiven

/-- An exclusion that stands for no name might as well not be given. -/
theorem excludeGlobs_drop (o : Options) (h : excludedName? given = none)
    (before after : List String) : (o.withExcludes (before ++ given :: after)).excludeGlobs =
      (o.withExcludes (before ++ after)).excludeGlobs := by
  have hyielded : yielded (before ++ given :: after) = yielded (before ++ after) := by
    simp only [yielded, List.filterMap_append, List.filterMap_cons, h]
  rw [excludeGlobs_withExcludes_eq, excludeGlobs_withExcludes_eq, hyielded]

/-- Of exclusions that stand for the same name, either will do. -/
theorem excludeGlobs_either (o : Options) (h : excludedName? given = excludedName? given') :
    (o.withExcludes [given]).excludeGlobs = (o.withExcludes [given']).excludeGlobs := by
  have hyielded : yielded [given] = yielded [given'] := by
    simp only [yielded, List.filterMap_cons, h]
  rw [excludeGlobs_withExcludes_eq, excludeGlobs_withExcludes_eq, hyielded]

/-- Of exclusions that stand for the same name, one is enough. -/
theorem excludeGlobs_both (o : Options) (h : excludedName? given = excludedName? given') :
    (o.withExcludes [given, given']).excludeGlobs = (o.withExcludes [given]).excludeGlobs := by
  have hsteps : (o.withExcludes [given, given']).exclude =
      ((o.withExcludes [given]).withExcludes [given']).exclude := by
    simp only [withExcludes, List.append_assoc, List.singleton_append]
  rw [excludeGlobs_congr hsteps]
  refine excludeGlobs_withExcludes_of_mem fun other hother glob hyields => ?_
  rw [List.mem_singleton.mp hother, yields_iff, ← h] at hyields
  have hgiven : given ∈ (o.withExcludes [given]).exclude :=
    List.mem_append_right _ (List.mem_singleton_self given)
  exact mem_excludeGlobs_iff.mpr ⟨given, .inr hgiven, yields_iff.mpr hyields⟩

/-- **When names are normal.** The name in a glob is never empty, and no separator is at its ends.
No blank is either just if all exclusions of the run have their blanks outside their separators;
then the names may be given again. Of such exclusions, those of blanks and separators only might as
well not be given, and of two that differ in blanks and separators at the ends only, one is enough.
-/
theorem normal_excludeGlobs_iff (o : Options) :
    (∀ glob ∈ o.excludeGlobs, ∃ name, glob = globFor name ∧ name ≠ [] ∧
      name.head? ≠ some '/' ∧ name.getLast? ≠ some '/') ∧
    ((∀ glob ∈ o.excludeGlobs, ∃ name, glob = globFor name ∧ Normal name) ↔
      ∀ given ∈ o.exclude, Framed given) ∧
    ((∀ given ∈ o.exclude, Framed given) → ∀ names : List String,
      (∀ name ∈ names, globFor name.toList ∈ o.excludeGlobs) →
        (o.withExcludes names).excludeGlobs = o.excludeGlobs) ∧
    (∀ given, Framed given → (∀ c ∈ given.toList, isMargin c) → ∀ before after,
      (o.withExcludes (before ++ given :: after)).excludeGlobs =
        (o.withExcludes (before ++ after)).excludeGlobs) ∧
    ∀ given given', Framed given → Framed given' → Alike given given' →
      (o.withExcludes [given]).excludeGlobs = (o.withExcludes [given']).excludeGlobs ∧
      (o.withExcludes [given, given']).excludeGlobs = (o.withExcludes [given]).excludeGlobs := by
  refine ⟨?unslashed, forall_normal_iff, fun h names => excludeGlobs_again h, ?blank, ?alike⟩
  case unslashed =>
    intro glob hglob
    obtain ⟨given, -, name, hname, rfl⟩ := mem_excludeGlobs_iff.mp hglob
    obtain ⟨middle, -, hslashes⟩ := hname.trimmed
    exact ⟨name, rfl, hname.ne_nil, fun hhead => absurd (hslashes.first _ hhead) (by decide),
      fun hlast => absurd (hslashes.last _ hlast) (by decide)⟩
  case blank =>
    intro given hframed hblank before after
    exact excludeGlobs_drop o (hframed.excludedName?_eq_none hblank) before after
  case alike =>
    intro given given' h h' halike
    have hsame := h.excludedName?_eq h' halike
    exact ⟨excludeGlobs_either o hsame, excludeGlobs_both o hsame⟩

theorem normal_excludeGlobs_iff_framed :
    let o := (ofRoot (.ofString "web")).withExcludes ["/gen ", " //"]
    (∀ given ∈ o.exclude, Framed given) ∧
    (∀ glob ∈ o.excludeGlobs, ∃ name, glob = globFor name ∧ Normal name) ∧
    globFor "gen".toList ∈ o.excludeGlobs ∧
    (o.withExcludes ["gen"]).excludeGlobs = o.excludeGlobs ∧
    (o.withExcludes ["lib", " //", "gen"]).excludeGlobs =
      (o.withExcludes ["lib", "gen"]).excludeGlobs ∧
    Alike "/gen " "gen//" ∧
    (o.withExcludes ["/gen ", "gen//"]).excludeGlobs = (o.withExcludes ["/gen "]).excludeGlobs := by
  intro o
  have hgen : Normal "gen".toList := by decide
  have hspace : isBlank ' ' := by decide
  have hlead : Framed "/gen " :=
    ⟨[], ['/'], "gen".toList, [], [' '], rfl, by simp [hspace], by simp, .inr hgen⟩
  have htrail : Framed "gen//" :=
    ⟨[], [], "gen".toList, ['/', '/'], [], rfl, by simp, by simp, .inr hgen⟩
  have hblank : Framed " //" :=
    ⟨[' '], ['/', '/'], [], [], [], rfl, by simp [hspace], by simp, .inl rfl⟩
  have hframed : ∀ given ∈ o.exclude, Framed given := by
    intro given hgiven
    have hcases : given = "/gen " ∨ given = " //" := by simpa [o, withExcludes, ofRoot] using hgiven
    rcases hcases with rfl | rfl
    · exact hlead
    · exact hblank
  have halike : Alike "/gen " "gen//" :=
    ⟨"gen".toList, ['/'], [' '], [], ['/', '/'], rfl, rfl, by simp [isMargin, hspace]⟩
  have hmem : globFor "gen".toList ∈ o.excludeGlobs := by decide +kernel
  obtain ⟨-, hnormal, hagain, hdrop, heither⟩ := normal_excludeGlobs_iff o
  exact ⟨hframed, hnormal.mpr hframed, hmem,
    hagain hframed ["gen"] fun name hname => List.mem_singleton.mp hname ▸ hmem,
    hdrop " //" hblank (by simp [isMargin, hspace]) ["lib"] ["gen"], halike,
    (heither "/gen " "gen//" hlead htrail halike).2⟩

/-- A blank within separators stays: a name ends in it, an exclusion of nothing else is kept, and
giving a name again adds another. -/
theorem blank_within_separators :
    let o := (ofRoot (.ofString "web")).withExcludes ["/ x /", "/ /"]
    o.excludeGlobs =
      ["**/node_modules/**", "**/dist/**", "**/build/**", "**/ x /**", "**/ /**"] ∧
    (¬ ∀ glob ∈ o.excludeGlobs, ∃ name, glob = globFor name ∧ Normal name) ∧
    (o.withExcludes [" x "]).excludeGlobs = o.excludeGlobs ++ ["**/x/**"] := by
  intro o
  have hglobs : o.excludeGlobs =
      ["**/node_modules/**", "**/dist/**", "**/build/**", "**/ x /**", "**/ /**"] := by
    decide +kernel
  refine ⟨hglobs, fun h => ?_, by decide +kernel⟩
  obtain ⟨name, hglob, hnormal⟩ := h (globFor [' ']) (by decide +kernel)
  rw [← globFor_injective hglob] at hnormal
  exact absurd hnormal (by decide)

end ConsoleSweep.Options
