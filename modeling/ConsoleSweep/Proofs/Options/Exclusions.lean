import Mathlib.Data.List.Induction
import Mathlib.Data.List.Nodup
import Mathlib.Tactic.MkIffOfInductiveProp
import ConsoleSweep.Options
import ConsoleSweep.Proofs.Glob.Plain
import ConsoleSweep.Proofs.Text.Trimming

/-!
# The globs of what a run leaves out

A given exclusion stands for a name, which is left when its ends are trimmed, or for none
(`StandsFor`), and the globs are those of the names (`mem_excludeGlobs_iff`). They come one at a
time: another name adds its glob at the end unless it is there already
(`excludeGlobs_withExcludes`). A plain name is what is given (`IsPlain.excludedName?`).
-/

namespace ConsoleSweep.Options

theorem firstOccurrences_concat (xs : List String) (x : String) :
    firstOccurrences (xs ++ [x]) =
      if x ∈ firstOccurrences xs then firstOccurrences xs else firstOccurrences xs ++ [x] := by
  rw [firstOccurrences, List.foldl_append]
  rfl

/-- Keeping first occurrences keeps every element. -/
theorem mem_firstOccurrences {xs : List String} {x : String} :
    x ∈ firstOccurrences xs ↔ x ∈ xs := by
  induction xs using List.reverseRecOn with
  | nil => rfl
  | append_singleton xs y ih =>
    rw [firstOccurrences_concat, List.mem_append, List.mem_singleton]
    split
    next hy =>
      refine ih.trans (Iff.symm (or_iff_left_of_imp ?_))
      rintro rfl
      exact ih.mp hy
    next => rw [List.mem_append, List.mem_singleton, ih]

theorem nodup_firstOccurrences (xs : List String) : (firstOccurrences xs).Nodup := by
  induction xs using List.reverseRecOn with
  | nil => exact List.nodup_nil
  | append_singleton xs x ih =>
    rw [firstOccurrences_concat]
    split
    next => exact ih
    next hx =>
      rw [← List.concat_eq_append]
      exact List.Nodup.concat hx ih

/-- More elements only add at the end. -/
theorem firstOccurrences_prefix (xs ys : List String) :
    firstOccurrences xs <+: firstOccurrences (xs ++ ys) := by
  induction ys using List.reverseRecOn with
  | nil => rw [List.append_nil]
  | append_singleton ys y ih =>
    rw [← List.append_assoc, firstOccurrences_concat]
    split
    next => exact ih
    next => exact ih.trans (List.prefix_append _ _)

/-- Elements that are there already make no difference. -/
theorem firstOccurrences_append_of_subset {xs ys : List String} (h : ys ⊆ xs) :
    firstOccurrences (xs ++ ys) = firstOccurrences xs := by
  induction ys using List.reverseRecOn with
  | nil => rw [List.append_nil]
  | append_singleton ys y ih =>
    obtain ⟨hys, hy⟩ := List.append_subset.mp h
    have hmem : y ∈ firstOccurrences xs :=
      mem_firstOccurrences.mpr (hy (List.mem_singleton_self y))
    rw [← List.append_assoc, firstOccurrences_concat, ih hys, if_pos hmem]

/-- What comes before another element has an occurrence before all of those of the other. -/
theorem pairwise_firstOccurrences (xs : List String) : (firstOccurrences xs).Pairwise
    fun x y => ∃ before after, xs = before ++ x :: after ∧ y ∉ before := by
  induction xs using List.reverseRecOn with
  | nil => exact List.Pairwise.nil
  | append_singleton xs z ih =>
    have hlonger := ih.imp (S := fun x y => ∃ before after,
        xs ++ [z] = before ++ x :: after ∧ y ∉ before) fun ⟨before, after, hxs, hy⟩ =>
      ⟨before, after ++ [z], by rw [hxs, List.append_assoc, List.cons_append], hy⟩
    rw [firstOccurrences_concat]
    split
    next => exact hlonger
    next hz =>
      refine List.pairwise_append.mpr ⟨hlonger, List.pairwise_singleton _ _, ?_⟩
      intro x hx y hy
      obtain ⟨before, after, hxs⟩ := List.append_of_mem (mem_firstOccurrences.mp hx)
      refine ⟨before, after ++ [z], by rw [hxs, List.append_assoc, List.cons_append], ?_⟩
      rw [List.mem_singleton.mp hy]
      refine fun hbefore => hz (mem_firstOccurrences.mpr ?_)
      rw [hxs]
      exact List.mem_append_left _ hbefore

/-! ## Names and their globs -/

/-- A given exclusion stands for a name: what is left when blanks and after them separators are
dropped from its ends, if anything is. -/
@[mk_iff standsFor_iff_and]
structure StandsFor (given : String) (name : List Char) : Prop where
  trimmed : ∃ middle, Trims isBlank given.toList middle ∧ Trims (· == '/') middle name
  ne_nil : name ≠ []

theorem standsFor_iff {given : String} {name : List Char} : StandsFor given name ↔
    trimEnds (· == '/') (trimEnds isBlank given.toList) = name ∧ name ≠ [] := by
  rw [standsFor_iff_and]
  simp only [trims_iff, exists_eq_left']

theorem excludedName?_eq_some_iff {given : String} {name : List Char} :
    excludedName? given = some name ↔ StandsFor given name := by
  rw [standsFor_iff, excludedName?]
  split
  next hnil => exact iff_of_false nofun fun ⟨hname, hne⟩ => hne (hname ▸ hnil)
  next hne => rw [Option.some_inj, and_iff_left_of_imp fun hname => hname ▸ hne]

theorem globFor_injective : Function.Injective globFor := by
  intro name name' h
  have hchars := String.ofList_inj.mp h
  rw [List.append_assoc, List.append_assoc] at hchars
  exact List.append_cancel_right (List.append_cancel_left hchars)

/-- A given exclusion stands for a name of which this is the glob. -/
def Yields (given glob : String) : Prop := ∃ name, StandsFor given name ∧ globFor name = glob

theorem yields_iff {given glob : String} :
    Yields given glob ↔ (excludedName? given).map globFor = some glob := by
  simp only [Yields, ← excludedName?_eq_some_iff, Option.map_eq_some_iff]

/-- A given exclusion yields one glob only. -/
theorem Yields.unique {given glob glob' : String} (h : Yields given glob)
    (h' : Yields given glob') : glob = glob' :=
  Option.some.inj ((yields_iff.mp h).symm.trans (yields_iff.mp h'))

/-- The globs that given exclusions yield, as often as they do. -/
def yielded (given : List String) : List String := (given.filterMap excludedName?).map globFor

theorem yielded_append (given more : List String) :
    yielded (given ++ more) = yielded given ++ yielded more := by
  rw [yielded, List.filterMap_append, List.map_append]
  rfl

theorem mem_yielded_iff {given : List String} {glob : String} :
    glob ∈ yielded given ↔ ∃ other ∈ given, Yields other glob := by
  simp only [yielded, List.map_filterMap, List.mem_filterMap, yields_iff]

theorem excludeGlobs_eq (o : Options) :
    o.excludeGlobs = firstOccurrences (yielded (builtinExcludes ++ o.exclude)) := rfl

/-- Nothing but the exclusions matters to what is left out. -/
theorem excludeGlobs_congr {o o' : Options} (h : o.exclude = o'.exclude) :
    o.excludeGlobs = o'.excludeGlobs := by
  rw [excludeGlobs_eq, excludeGlobs_eq, h]

theorem excludeGlobs_withExcludes_eq (o : Options) (names : List String) :
    (o.withExcludes names).excludeGlobs =
      firstOccurrences (yielded (builtinExcludes ++ o.exclude) ++ yielded names) := by
  rw [excludeGlobs_eq, withExcludes, ← List.append_assoc, yielded_append]

/-- The globs of what a run leaves out are those of the names, built in or given. -/
theorem mem_excludeGlobs_iff {o : Options} {glob : String} : glob ∈ o.excludeGlobs ↔
    ∃ given, (given ∈ builtinExcludes ∨ given ∈ o.exclude) ∧ Yields given glob := by
  simp only [excludeGlobs_eq, mem_firstOccurrences, mem_yielded_iff, List.mem_append]

/-- Every exclusion is the glob of a name. -/
theorem exists_name_of_mem_excludeGlobs {o : Options} {glob : String} (h : glob ∈ o.excludeGlobs) :
    ∃ name, glob = globFor name := by
  obtain ⟨given, -, name, -, rfl⟩ := mem_excludeGlobs_iff.mp h
  exact ⟨name, rfl⟩

/-- Further exclusions only add globs at the end. -/
theorem excludeGlobs_prefix (o : Options) (names : List String) :
    o.excludeGlobs <+: (o.withExcludes names).excludeGlobs := by
  rw [excludeGlobs_withExcludes_eq]
  exact firstOccurrences_prefix _ _

/-- Exclusions whose globs are there already make no difference. -/
theorem excludeGlobs_withExcludes_of_mem {o : Options} {names : List String}
    (h : ∀ given ∈ names, ∀ glob, Yields given glob → glob ∈ o.excludeGlobs) :
    (o.withExcludes names).excludeGlobs = o.excludeGlobs := by
  have hsubset : yielded names ⊆ yielded (builtinExcludes ++ o.exclude) := by
    intro glob hglob
    obtain ⟨given, hgiven, hyields⟩ := mem_yielded_iff.mp hglob
    exact mem_firstOccurrences.mp (h given hgiven glob hyields)
  rw [excludeGlobs_withExcludes_eq, firstOccurrences_append_of_subset hsubset, excludeGlobs_eq]

/-- Another name adds its glob at the end, unless it is there already. -/
theorem excludeGlobs_withExcludes {o : Options} {given : String} {name : List Char}
    (h : excludedName? given = some name) : (o.withExcludes [given]).excludeGlobs =
      if globFor name ∈ o.excludeGlobs then o.excludeGlobs
      else o.excludeGlobs ++ [globFor name] := by
  have hone : yielded [given] = [globFor name] := by simp [yielded, h]
  rw [excludeGlobs_withExcludes_eq, hone, firstOccurrences_concat, excludeGlobs_eq]

/-! ## Plain names -/

/-- One name or several with separators in between, none of them empty, that mean nothing in a glob,
without blanks at the ends. -/
@[mk_iff]
structure IsPlain (given : String) : Prop where
  parts : ∀ part ∈ partsAt slash (Utf8.encode given), part ≠ []
  literal : ∀ c ∈ given.toList, c ∉ Glob.special
  first : ∀ c ∈ given.toList.head?, isBlank c = false
  last : ∀ c ∈ given.toList.getLast?, isBlank c = false

-- Spelled with `all`: a search through every character would never end.
instance (given : String) : Decidable (IsPlain given) :=
  decidable_of_iff ((partsAt slash (Utf8.encode given)).all (· ≠ []) ∧
    given.toList.all (· ∉ Glob.special) ∧ given.toList.head?.all (!isBlank ·) ∧
    given.toList.getLast?.all (!isBlank ·))
    (by simp [isPlain_iff, Option.all_eq_true])

namespace IsPlain

variable {given : String}

theorem ne_nil (h : IsPlain given) : given.toList ≠ [] := by
  intro hnil
  have hempty : Utf8.encode given = [] := by
    rw [Utf8.encode, hnil]
    rfl
  exact h.parts [] (by rw [hempty]; exact List.mem_singleton_self []) rfl

theorem head?_ne (h : IsPlain given) : given.toList.head? ≠ some '/' := by
  intro hhead
  obtain ⟨rest, hrest⟩ := List.head?_eq_some_iff.mp hhead
  have hencode : Utf8.encode given = [] ++ slash :: rest.flatMap String.utf8EncodeChar := by
    rw [Utf8.encode, hrest]
    rfl
  refine h.parts [] ?_ rfl
  rw [hencode, partsAt_append_cons]
  exact List.mem_append_left _ (List.mem_singleton_self [])

theorem getLast?_ne (h : IsPlain given) : given.toList.getLast? ≠ some '/' := by
  intro hlast
  obtain ⟨front, hfront⟩ := List.getLast?_eq_some_iff.mp hlast
  have hencode : Utf8.encode given = front.flatMap String.utf8EncodeChar ++ slash :: [] := by
    rw [Utf8.encode, hfront, List.flatMap_append]
    rfl
  refine h.parts [] ?_ rfl
  rw [hencode, partsAt_append_cons]
  exact List.mem_append_right _ (List.mem_singleton_self [])

end IsPlain

/-- A plain name is excluded as it is. -/
theorem IsPlain.excludedName? {given : String} (h : IsPlain given) :
    Options.excludedName? given = some given.toList := by
  have hblank := trimEnds_eq_self h.first h.last
  have hslash : trimEnds (· == '/') given.toList = given.toList := by
    refine trimEnds_eq_self (fun c hc => ?_) (fun c hc => ?_)
    · exact beq_false_of_ne fun heq => h.head?_ne (heq ▸ hc)
    · exact beq_false_of_ne fun heq => h.getLast?_ne (heq ▸ hc)
  rw [Options.excludedName?, hblank, hslash]
  split
  next hnil => exact absurd hnil h.ne_nil
  next => rfl

end ConsoleSweep.Options
