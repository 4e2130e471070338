import ConsoleSweep.FileTree.Basic

/-!
# Reading a tree after putting something into it

The store laws of file trees: what was put is read back (`get?_put_self`), everything else is as
before (`get?_put_of_ne`), and putting what is there already changes nothing (`put_get?`). The last
one is an equality of trees, so it needs the order of the entries: in an ordered list, putting at an
occupied location replaces the one entry there (`putEntry_eq_map`).
-/

namespace ConsoleSweep

/-! ## Entries -/

theorem find?_putEntry_self (loc : Location) (node : Node) (entries : List (Location × Node)) :
    (putEntry loc node entries).find? (·.1 == loc) = some (loc, node) := by
  induction entries with
  | nil => simp [putEntry]
  | cons first rest ih =>
    rw [putEntry]
    split
    · simp
    split
    · simp
    next hne => rw [List.find?_cons_of_neg (by simpa using Ne.symm hne), ih]

theorem find?_putEntry_of_ne {loc other : Location} (hne : other ≠ loc) (node : Node)
    (entries : List (Location × Node)) :
    (putEntry loc node entries).find? (·.1 == other) = entries.find? (·.1 == other) := by
  induction entries with
  | nil => simp [putEntry, Ne.symm hne]
  | cons first rest ih =>
    rw [putEntry]
    split
    · rw [List.find?_cons_of_neg (by simpa using Ne.symm hne)]
    split
    next heq =>
      rw [List.find?_cons_of_neg (by simpa using Ne.symm hne),
        List.find?_cons_of_neg (by simpa [← heq] using Ne.symm hne)]
    next => simp only [List.find?_cons, ih]

/-- No location of an ordered list lies below its first. -/
theorem Ordered.not_lt_first {first : Location × Node} {rest : List (Location × Node)}
    (h : Ordered (first :: rest)) {entry : Location × Node} (hentry : entry ∈ first :: rest) :
    ¬entry.1 < first.1 := by
  obtain ⟨hbelow, -⟩ := List.pairwise_cons.mp h
  rcases List.mem_cons.mp hentry with rfl | hentry
  · exact Std.lt_irrefl
  · exact fun hlt => Std.lt_irrefl (Std.lt_trans hlt (hbelow entry hentry))

/-- Putting at an occupied location replaces the entry there. -/
theorem putEntry_eq_map {loc : Location} {old node : Node} {entries : List (Location × Node)}
    (hordered : Ordered entries) (hold : (loc, old) ∈ entries) :
    putEntry loc node entries = entries.map fun e => if e.1 = loc then (loc, node) else e := by
  induction entries with
  | nil => cases hold
  | cons first rest ih =>
    have ⟨hbelow, hrest⟩ := List.pairwise_cons.mp hordered
    rw [putEntry, if_neg (hordered.not_lt_first hold)]
    by_cases heq : loc = first.1
    · -- the location is the first one, so every other entry stays
      subst heq
      have hothers : ∀ e ∈ rest, e.1 ≠ first.1 := fun e he hsame =>
        Std.lt_irrefl (hsame ▸ hbelow e he)
      rw [if_pos rfl, List.map_cons, if_pos rfl]
      congr 1
      exact (List.map_id' rest).symm.trans
        (List.map_congr_left fun e he => (if_neg (hothers e he)).symm)
    · have hold : (loc, old) ∈ rest := by
        rcases List.mem_cons.mp hold with h | h
        · exact absurd (congrArg Prod.fst h) heq
        · exact h
      rw [if_neg heq, List.map_cons, if_neg (Ne.symm heq), ih hrest hold]

/-- A location occurs once in an ordered list. -/
theorem Ordered.eq_of_mem {entries : List (Location × Node)} (h : Ordered entries)
    {loc : Location} {a b : Node} (ha : (loc, a) ∈ entries) (hb : (loc, b) ∈ entries) : a = b := by
  induction entries with
  | nil => cases ha
  | cons first rest ih =>
    have ⟨hbelow, hrest⟩ := List.pairwise_cons.mp h
    rcases List.mem_cons.mp ha with rfl | ha <;> rcases List.mem_cons.mp hb with hb | hb
    · exact (congrArg Prod.snd hb).symm
    · exact absurd (hbelow _ hb) Std.lt_irrefl
    · exact absurd (hbelow _ ha) (hb ▸ Std.lt_irrefl)
    · exact ih hrest ha hb

/-! ## Trees -/

namespace FileTree

variable {tree : FileTree} {loc other : Location} {node : Node}

theorem get?_put_self {hnamed : loc.Named} (hloc : loc ≠ []) :
    (tree.put loc node hnamed).get? loc = some node := by
  simp [get?, put, hloc, find?_putEntry_self]

theorem get?_put_of_ne {hnamed : loc.Named} (hne : other ≠ loc) :
    (tree.put loc node hnamed).get? other = tree.get? other := by
  simp [get?, put, find?_putEntry_of_ne hne]

/-- What is at a location other than the top is an entry. -/
theorem mem_entries_of_get? (hloc : loc ≠ []) (h : tree.get? loc = some node) :
    (loc, node) ∈ tree.entries := by
  rw [get?, if_neg hloc, Option.map_eq_some_iff] at h
  obtain ⟨entry, hentry, rfl⟩ := h
  have hfound : entry.1 = loc := by simpa using List.find?_some hentry
  exact hfound ▸ List.mem_of_find?_eq_some hentry

/-- Something is only at locations of proper names. -/
theorem named_of_get? (h : tree.get? loc = some node) : loc.Named := by
  by_cases hloc : loc = []
  · exact hloc ▸ Location.named_nil
  · exact tree.named _ (mem_entries_of_get? hloc h)

/-- What is an entry is at its location. -/
theorem get?_of_mem_entries (hloc : loc ≠ []) (h : (loc, node) ∈ tree.entries) :
    tree.get? loc = some node := by
  rw [get?, if_neg hloc]
  cases hfind : tree.entries.find? (·.1 == loc) with
  | none => exact absurd (List.find?_eq_none.mp hfind _ h) (by simp)
  | some entry =>
    obtain ⟨place, found⟩ := entry
    have hplace : place = loc := by simpa using List.find?_some hfind
    subst hplace
    rw [tree.ordered.eq_of_mem (List.mem_of_find?_eq_some hfind) h]
    rfl

/-- Below a location is what there is at longer ones. -/
theorem mem_below_iff {rel : List Name} :
    (rel, node) ∈ tree.below loc ↔ rel ≠ [] ∧ tree.get? (loc ++ rel) = some node := by
  rw [below, List.mem_filterMap]
  constructor
  · rintro ⟨⟨place, found⟩, hentry, hsome⟩
    dsimp only at hsome
    split at hsome
    next hbelow =>
      cases hsome
      rw [Bool.and_eq_true, List.isPrefixOf_iff_prefix, bne_iff_ne] at hbelow
      obtain ⟨⟨rel, rfl⟩, hne⟩ := hbelow
      rw [List.drop_left]
      have hrel : rel ≠ [] := by
        rintro rfl
        exact hne (List.append_nil loc).symm
      exact ⟨hrel, get?_of_mem_entries (List.append_ne_nil_of_right_ne_nil loc hrel) hentry⟩
    next => cases hsome
  · rintro ⟨hrel, hget⟩
    have hbelow : (loc.isPrefixOf (loc ++ rel) && loc != loc ++ rel) = true := by
      simp [hrel]
    refine ⟨(loc ++ rel, node),
      mem_entries_of_get? (List.append_ne_nil_of_right_ne_nil loc hrel) hget, ?_⟩
    dsimp only
    rw [if_pos hbelow, List.drop_left]

/-- What is below a location has proper names. -/
theorem named_of_mem_below {rel : List Name} (h : (rel, node) ∈ tree.below loc) :
    Location.Named rel :=
  fun name hname =>
    named_of_get? (mem_below_iff.mp h).2 name (List.mem_append_right loc hname)

/-- Only the top of a tree is a directory by itself, so a file is never there. -/
theorem ne_nil_of_get?_file {data : Bytes} (h : tree.get? loc = some (.file data)) : loc ≠ [] := by
  rintro rfl
  simp [get?] at h

/-- Putting what is there already changes nothing. -/
theorem put_get? {hnamed : loc.Named} (hloc : loc ≠ []) (h : tree.get? loc = some node) :
    tree.put loc node hnamed = tree := by
  have hmem := mem_entries_of_get? hloc h
  have hsame : ∀ e ∈ tree.entries, (if e.1 = loc then (loc, node) else e) = e := by
    rintro ⟨l, n⟩ he
    split
    next heq =>
      cases heq
      rw [tree.ordered.eq_of_mem hmem he]
    next => rfl
  have hentries : putEntry loc node tree.entries = tree.entries := by
    rw [putEntry_eq_map tree.ordered hmem, List.map_congr_left hsame, List.map_id']
  cases tree
  simp only [put, FileTree.mk.injEq]
  exact hentries

end FileTree

end ConsoleSweep
