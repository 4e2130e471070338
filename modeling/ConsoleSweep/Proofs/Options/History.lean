import ConsoleSweep.Proofs.Options.Exclusions

/-!
# Exclusions given a few at a time

Options are built in steps, and exclusions may be given in any of them. What a run leaves out
depends on nothing but the exclusions, one list after the other: `GlobsOf` says which globs come of
a list and in which order, `GlobsOf.unique` that this leaves no choice, and
`excludeGlobs_of_history` that just these are the globs after every sequence of steps. A further
step only adds globs at the end.
-/

namespace ConsoleSweep.Options

/-! ## Building options -/

/-- A step in building options. -/
inductive Change where
  | pattern (text : String)
  | dryRun (dry : Bool)
  | excludes (names : List String)
  deriving DecidableEq, Repr

namespace Change

/-- The options after a step. -/
def apply (o : Options) : Change → Options
  | pattern text => o.withPattern text
  | dryRun dry => o.withDryRun dry
  | excludes names => o.withExcludes names

/-- The exclusions that a step gives. -/
def given : Change → List String
  | excludes names => names
  | _ => []

theorem exclude_apply (o : Options) (change : Change) :
    (change.apply o).exclude = o.exclude ++ change.given := by
  cases change with
  | excludes names => rfl
  | _ => exact (List.append_nil _).symm

end Change

/-- The options of a root after a sequence of steps. -/
def built (root : Path) (changes : List Change) : Options :=
  changes.foldl Change.apply (ofRoot root)

/-- All exclusions that a sequence of steps gives. -/
def supplied (changes : List Change) : List String := changes.flatMap Change.given

theorem exclude_foldl (o : Options) (changes : List Change) :
    (changes.foldl Change.apply o).exclude = o.exclude ++ supplied changes := by
  induction changes generalizing o with
  | nil => exact (List.append_nil _).symm
  | cons change rest ih =>
    rw [List.foldl_cons, ih, Change.exclude_apply, List.append_assoc]
    rfl

/-- The names that are excluded after a sequence of steps. -/
theorem exclude_built (root : Path) (changes : List Change) :
    (built root changes).exclude = supplied changes := exclude_foldl (ofRoot root) changes

/-! ## The globs of a list of exclusions -/

/-- One glob is yielded by an exclusion of a list that stands before all those which yield the
other. -/
def Precedes (given : List String) (glob later : String) : Prop :=
  ∃ before first after, given = before ++ first :: after ∧ Yields first glob ∧
    ∀ other ∈ before, ¬ Yields other later

/-- The globs of the built-in exclusions and a list of given ones, each once, in the order in which
they are first yielded. -/
structure GlobsOf (given globs : List String) : Prop where
  nodup : globs.Nodup
  starts : ["**/node_modules/**", "**/dist/**", "**/build/**"] <+: globs
  mem_iff : ∀ glob, glob ∈ globs ↔
    (∃ name ∈ builtinExcludes, glob = globFor name.toList) ∨ ∃ name ∈ given, Yields name glob
  ordered : globs.Pairwise (Precedes (builtinExcludes ++ given))

/-- Built-in names stand for themselves. -/
theorem yields_builtin_iff {name glob : String} (h : name ∈ builtinExcludes) :
    Yields name glob ↔ glob = globFor name.toList := by
  have hself : ∀ name ∈ builtinExcludes, excludedName? name = some name.toList := by decide
  rw [yields_iff, hself name h, Option.map_some, Option.some_inj, eq_comm]

/-- If no exclusion before one of two yields the glob of the other, either way round, they yield the
same. -/
theorem eq_of_yields {before before' after after' : List String} {first first' glob glob' : String}
    (hcut : before ++ first :: after = before' ++ first' :: after') (hbefore : before <+: before')
    (hyields : Yields first glob) (hyields' : Yields first' glob')
    (hbefore' : ∀ other ∈ before', ¬ Yields other glob) : glob = glob' := by
  obtain ⟨between, rfl⟩ := hbefore
  rw [List.append_assoc, List.append_cancel_left_eq] at hcut
  cases between with
  | nil =>
    obtain ⟨rfl, -⟩ := List.cons_eq_cons.mp hcut
    exact hyields.unique hyields'
  | cons other between =>
    obtain ⟨rfl, -⟩ := List.cons_eq_cons.mp hcut
    exact absurd hyields (hbefore' first (by simp))

theorem Precedes.antisymm {given : List String} {glob glob' : String}
    (h : Precedes given glob glob') (h' : Precedes given glob' glob) : glob = glob' := by
  obtain ⟨before, first, after, hcut, hyields, hbefore⟩ := h
  obtain ⟨before', first', after', hcut', hyields', hbefore'⟩ := h'
  have hboth := hcut.symm.trans hcut'
  rcases List.prefix_or_prefix_of_prefix ⟨_, hcut.symm⟩ ⟨_, hcut'.symm⟩ with hshorter | hshorter
  · exact eq_of_yields hboth hshorter hyields hyields' hbefore'
  · exact (eq_of_yields hboth.symm hshorter hyields' hyields hbefore).symm

/-- A list of exclusions leaves no choice about its globs. -/
theorem GlobsOf.unique {given globs globs' : List String} (h : GlobsOf given globs)
    (h' : GlobsOf given globs') : globs = globs' := by
  have hperm : globs.Perm globs' :=
    (List.perm_ext_iff_of_nodup h.nodup h'.nodup).mpr fun glob =>
      (h.mem_iff glob).trans (h'.mem_iff glob).symm
  exact hperm.eq_of_pairwise (fun _ _ _ _ => Precedes.antisymm) h.ordered h'.ordered

/-! ## The globs of a run -/

/-- A glob among those that a list of exclusions yields comes from one of them, and the globs before
it hold those of all exclusions before that one. -/
theorem exists_yields_of_yielded {given before after : List String} {glob : String}
    (h : yielded given = before ++ glob :: after) :
    ∃ front first back, given = front ++ first :: back ∧ Yields first glob ∧
      ∀ other ∈ front, ∀ glob', Yields other glob' → glob' ∈ before := by
  rw [yielded, List.map_filterMap, List.filterMap_eq_append_iff] at h
  obtain ⟨front, rest, rfl, hfront, hrest⟩ := h
  obtain ⟨silent, first, back, rfl, hsilent, hfirst, -⟩ := List.filterMap_eq_cons_iff.mp hrest
  refine ⟨front ++ silent, first, back, by rw [List.append_assoc], yields_iff.mpr hfirst, ?_⟩
  intro other hother glob' hyields
  rcases List.mem_append.mp hother with hother | hother
  · rw [← hfront]
    exact List.mem_filterMap.mpr ⟨other, hother, yields_iff.mp hyields⟩
  · rw [yields_iff, hsilent other hother] at hyields
    cases hyields

/-- The globs of a run are those of its exclusions. -/
theorem globsOf_excludeGlobs (o : Options) : GlobsOf o.exclude o.excludeGlobs where
  nodup := nodup_firstOccurrences _
  starts := excludeGlobs_prefix (ofRoot o.root) o.exclude
  mem_iff := by
    intro glob
    simp only [mem_excludeGlobs_iff, or_and_right, exists_or]
    exact or_congr_left (exists_congr fun name => and_congr_right yields_builtin_iff)
  ordered := by
    refine (pairwise_firstOccurrences _).imp fun {glob later} h => ?_
    obtain ⟨before, after, hcut, hlater⟩ := h
    obtain ⟨front, first, back, hgiven, hyields, hfront⟩ := exists_yields_of_yielded hcut
    exact ⟨front, first, back, hgiven, hyields, fun other hother hother' =>
      hlater (hfront other hother later hother')⟩

/-- **What is left out after any sequence of steps** are the globs of the built-in exclusions and of
those given, one list after the other, in the order in which they are first yielded. The root and
the other steps make no difference to them, and further steps only add to them at the end. -/
theorem excludeGlobs_of_history (root : Path) (changes : List Change) :
    (∀ globs, globs = (built root changes).excludeGlobs ↔ GlobsOf (supplied changes) globs) ∧
    (∀ root', (built root changes).excludeGlobs =
      ((ofRoot root').withExcludes (supplied changes)).excludeGlobs) ∧
    ∀ more, (built root changes).excludeGlobs <+: (built root (changes ++ more)).excludeGlobs := by
  have hglobs := globsOf_excludeGlobs (built root changes)
  rw [exclude_built] at hglobs
  refine ⟨fun globs => ⟨fun h => h ▸ hglobs, fun h => h.unique hglobs⟩, fun root' => ?_,
    fun more => ?_⟩
  · exact hglobs.unique (globsOf_excludeGlobs ((ofRoot root').withExcludes (supplied changes)))
  · have hmore : (built root (changes ++ more)).exclude =
        ((built root changes).withExcludes (supplied more)).exclude := by
      rw [withExcludes, exclude_built, exclude_built, supplied, List.flatMap_append]
      rfl
    rw [excludeGlobs_congr hmore]
    exact excludeGlobs_prefix _ _

example : (built (.ofString "web") [.excludes ["gen", " dist/"], .dryRun true,
    .excludes ["/gen ", "", "lib"]]).excludeGlobs =
      ["**/node_modules/**", "**/dist/**", "**/build/**", "**/gen/**", "**/lib/**"] := by
  decide +kernel

end ConsoleSweep.Options
