import ConsoleSweep.FileTree.Access

/-!
# The way of a path

A look-up stays where it is at `.`, and repeated separators count once. So a look-up that goes on
after a path only depends on the path's `way`: the names in it that lead somewhere else
(`walk_way`). Two paths with one way may still differ at their end, where a `.` asks for a
directory; if both lead to a directory, it is the same (`eq_of_way_eq`).
-/

namespace ConsoleSweep

/-- The names a path goes through that lead somewhere else. -/
def Path.way (path : Path) : List Name := path.names.filter (· != Name.here)

/-- A final separator adds nothing to the way of a path. -/
theorem Path.way_eq (path : Path) :
    path.way = ((partsAt slash path.bytes).filter (· != [])).filter (· != Name.here) := by
  rw [way, names, List.filter_append]
  cases path.endsInSlash <;> simp

namespace FileTree

variable {tree : FileTree} {follow : Bool} {links : Nat} {loc : Location} {names rest : List Name}
  {onLink : Location → Bytes → List Name → Except Fault Place}

/-! ## Going on -/

/-- A look-up that goes on stays where it is at `.`. -/
theorem descend_here (hrest : rest ≠ []) : tree.descend follow onLink loc (Name.here :: rest) =
    tree.descend follow onLink loc rest := by
  obtain ⟨name, rest, rfl⟩ := List.exists_cons_of_ne_nil hrest
  rw [descend, if_pos rfl, descend]
  -- what `.` needs to be there is what the name after it needs
  rcases tree.get? loc with _ | _ | _ | _ <;> rfl

theorem descend_way (hrest : rest ≠ [])
    (honLink : ∀ loc target names, onLink loc target (names ++ rest) =
      onLink loc target (names.filter (· != Name.here) ++ rest)) :
    tree.descend follow onLink loc (names ++ rest) =
      tree.descend follow onLink loc (names.filter (· != Name.here) ++ rest) := by
  induction names generalizing loc with
  | nil => rfl
  | cons name names ih =>
    by_cases hhere : name = Name.here
    · rw [List.filter_cons_of_neg (by simp [hhere]), hhere, List.cons_append,
        descend_here (by simp [hrest]), ih]
    · have hgoesOn : ∀ names, names ++ rest ≠ [] := fun names =>
        List.append_ne_nil_of_right_ne_nil names hrest
      rw [List.filter_cons_of_pos (by simp [hhere]), List.cons_append, List.cons_append, descend,
        descend]
      simp only [ih, honLink _ _ names, hgoesOn, bne_iff_ne.mpr (hgoesOn _)]

/-- **A look-up that goes on after some names does not depend on where `.` stands among them.** -/
theorem walk_way (hrest : rest ≠ []) : tree.walk follow links loc (names ++ rest) =
    tree.walk follow links loc (names.filter (· != Name.here) ++ rest) := by
  induction links generalizing loc names with
  | zero => exact descend_way hrest fun _ _ _ => rfl
  | succ links ih =>
    refine descend_way hrest fun loc target names => ?_
    -- the target of a link goes in front of the names still to come
    have hfilter : ((⟨target⟩ : Path).names ++ names).filter (· != Name.here) =
        ((⟨target⟩ : Path).names ++ names.filter (· != Name.here)).filter (· != Name.here) := by
      rw [List.filter_append, List.filter_append, List.filter_filter]
      simp only [Bool.and_self]
    dsimp only
    rw [← List.append_assoc, ← List.append_assoc, ih, hfilter, ← ih]

/-! ## Coming to a directory -/

theorem descend_concat_here {place : Location} (hplace : tree.get? place = some .dir)
    (honLink : ∀ loc target rest, onLink loc target rest = .ok (.found place) →
      onLink loc target (rest ++ [Name.here]) = .ok (.found place))
    (h : tree.descend true onLink loc names = .ok (.found place)) :
    tree.descend true onLink loc (names ++ [Name.here]) = .ok (.found place) := by
  induction names generalizing loc with
  | nil =>
    cases h
    rw [List.nil_append, descend, hplace]
    rfl
  | cons name rest ih =>
    rw [descend] at h
    rw [List.cons_append, descend]
    split at h
    · by_cases hhere : name = Name.here
      · rw [if_pos hhere] at h ⊢
        exact ih h
      rw [if_neg hhere] at h ⊢
      by_cases hup : name = Name.up
      · rw [if_pos hup] at h ⊢
        exact ih h
      rw [if_neg hup] at h ⊢
      by_cases hlong : longestName < name.length
      · rw [if_pos hlong] at h
        cases h
      rw [if_neg hlong] at h ⊢
      split at h
      · split at h <;> cases h
      · exact honLink _ _ _ h
      · exact ih h
    · cases h
    · cases h

/-- A path that leads to a directory leads there with a `.` at its end, too. -/
theorem walk_concat_here {place : Location} (hplace : tree.get? place = some .dir)
    (h : tree.walk true links loc names = .ok (.found place)) :
    tree.walk true links loc (names ++ [Name.here]) = .ok (.found place) := by
  induction links generalizing loc names with
  | zero => exact descend_concat_here hplace (fun _ _ _ h => by cases h) h
  | succ links ih =>
    refine descend_concat_here hplace (fun loc target rest h => ?_) h
    dsimp only at h ⊢
    rw [← List.append_assoc]
    exact ih h

/-! ## Paths -/

variable {path other : Path} {place : Location}

/-- A path leads somewhere if it can be spelled at all, is not too long, and its names do. -/
theorem resolve?_eq_ok_iff : tree.resolve? path = .ok place ↔
    (0 ∉ path.bytes ∧ path.bytes ≠ [] ∧ path.bytes.length < pathLimit) ∧
      tree.walk true linkLimit [] path.names = .ok (.found place) := by
  rw [resolve?, resolve, locate]
  by_cases hnul : 0 ∈ path.bytes
  · simp [hnul]
  by_cases hlong : pathLimit ≤ path.bytes.length
  · simp [hnul, hlong, Nat.not_lt.mpr hlong]
  by_cases hnil : path.bytes = []
  · simp [hnil, pathLimit]
  simp only [hnul, hlong, hnil, not_false_eq_true, and_false, if_false, Nat.not_le.mp hlong, ne_eq,
    and_self, true_and]
  rcases tree.walk true linkLimit [] path.names with _ | _ | _ <;> simp

/-- A path leads to a file if its names do. -/
theorem isFile_iff : tree.isFile path = true ↔
    (0 ∉ path.bytes ∧ path.bytes ≠ [] ∧ path.bytes.length < pathLimit) ∧
      ∃ place data, tree.walk true linkLimit [] path.names = .ok (.found place) ∧
        tree.get? place = some (.file data) := by
  have hstat : tree.isFile path = true ↔
      ∃ place data, tree.resolve? path = .ok place ∧ tree.get? place = some (.file data) := by
    rw [isFile, stat]
    cases tree.resolve? path with
    | error fault => simp [bind, Except.bind]
    | ok place =>
      rcases hget : tree.get? place with _ | _ | _ | _ <;> simp [bind, Except.bind, hget]
  simp only [hstat, resolve?_eq_ok_iff, and_assoc, exists_and_left]

/-- **Two spellings of one way that lead to a directory lead to the same one.** -/
theorem eq_of_way_eq {place' : Location} (hway : path.way = other.way)
    (h : tree.resolve? path = .ok place) (hdir : tree.get? place = some .dir)
    (h' : tree.resolve? other = .ok place') (hdir' : tree.get? place' = some .dir) :
    place = place' := by
  have hend : ∀ {path : Path} {place : Location}, tree.resolve? path = .ok place →
      tree.get? place = some .dir →
      tree.walk true linkLimit [] (path.way ++ [Name.here]) = .ok (.found place) := by
    intro path place h hdir
    rw [Path.way, ← walk_way (List.cons_ne_nil _ _)]
    exact walk_concat_here hdir (resolve?_eq_ok_iff.mp h).2
  have hplace := hend h hdir
  rw [hway, hend h' hdir'] at hplace
  cases hplace
  rfl

end FileTree

end ConsoleSweep
