import ConsoleSweep.FileTree.Basic
import ConsoleSweep.FileTree.Fault

/-!
# Looking up paths

A path is looked up name by name from the top of the tree. A symbolic link on the way is replaced by
its target, which is looked up from the link's directory, and at most forty links are followed in
one look-up. The last name may be missing: the look-up then ends at a vacant place, which is where a
new file would go.

Absolute paths start at the top as well, and the parent of the top is the top.

Only names that an entry can have are followed, so a look-up ends at a location of such names
(`named_locate`), where something may be put.
-/

namespace ConsoleSweep.FileTree

open ConsoleSweep.Location (Named named_nil named_concat)

/-- The longest name a directory holds, in bytes. -/
def longestName : Nat := 255

/-- A path of this many bytes is too long to look up. -/
def pathLimit : Nat := 4096

/-- How many links one look-up follows. -/
def linkLimit : Nat := 40

/-- Where a look-up ends. -/
inductive Place where
  /-- Something is there. -/
  | found (loc : Location)
  /-- Nothing is there, but its directory is. -/
  | vacant (loc : Location)
  deriving DecidableEq, Repr

/-- The location of a place. -/
def Place.location : Place → Location
  | .found loc => loc
  | .vacant loc => loc

/-- Looks up names from a location, leaving links to `onLink`, which gets the link's directory, its
target and the names still to come. A link as the last name counts as found if it is not to be
followed. -/
def descend (tree : FileTree) (follow : Bool)
    (onLink : Location → Bytes → List Name → Except Fault Place) :
    Location → List Name → Except Fault Place
  | loc, [] => .ok (.found loc)
  | loc, name :: rest =>
    match tree.get? loc with
    | some .dir =>
      if name = Name.here then descend tree follow onLink loc rest
      else if name = Name.up then descend tree follow onLink loc.dropLast rest
      else if longestName < name.length then .error .nameTooLong
      else
        match tree.get? (loc ++ [name]) with
        | none => if rest = [] then .ok (.vacant (loc ++ [name])) else .error .notFound
        | some (.link target) =>
          if follow || rest != [] then onLink loc target rest else .ok (.found (loc ++ [name]))
        | some _ => descend tree follow onLink (loc ++ [name]) rest
    | some _ => .error .notADirectory
    | none => .error .notFound

/-- Looks up names from a location, following at most `links` links. -/
def walk (tree : FileTree) (follow : Bool) : (links : Nat) → Location → List Name →
    Except Fault Place
  | 0 => tree.descend follow fun _ _ _ => .error .tooManyLinks
  | links + 1 => tree.descend follow fun loc target rest =>
      let path : Path := ⟨target⟩
      tree.walk follow links (if path.isAbsolute then [] else loc) (path.names ++ rest)

/-- Where a path leads, whatever its length. -/
def locate (tree : FileTree) (path : Path) (follow : Bool) : Except Fault Place :=
  if 0 ∈ path.bytes then .error .nulInPath
  else if path.bytes = [] then .error .notFound
  else tree.walk follow linkLimit [] path.names

/-- Where a path leads. -/
def resolve (tree : FileTree) (path : Path) : Except Fault Place :=
  if 0 ∉ path.bytes ∧ pathLimit ≤ path.bytes.length then .error .nameTooLong
  else tree.locate path true

/-- The location a path leads to, if something is there. -/
def resolve? (tree : FileTree) (path : Path) : Except Fault Location :=
  match tree.resolve path with
  | .ok (.found loc) => .ok loc
  | .ok (.vacant _) => .error .notFound
  | .error fault => .error fault

variable {tree : FileTree} {follow : Bool} {path : Path} {loc : Location} {names : List Name}
  {place : Place}

theorem resolve?_eq_ok_iff_found : tree.resolve? path = .ok loc ↔
    tree.resolve path = .ok (.found loc) := by
  rw [resolve?]
  split <;> simp [*]

/-- An empty path leads nowhere. -/
theorem ne_nil_of_resolve? (h : tree.resolve? path = .ok loc) : path.bytes ≠ [] := by
  intro hnil
  have hnowhere : tree.resolve path = .error .notFound := by
    rw [resolve, locate, hnil]
    rfl
  rw [resolve?, hnowhere] at h
  cases h

/-! ## The names of a place -/

/-- A look-up comes to a proper location, if it does so after links. -/
theorem named_descend {onLink : Location → Bytes → List Name → Except Fault Place}
    (honLink : ∀ loc target rest place, Named loc → (∀ name ∈ rest, name ≠ [] ∧ slash ∉ name) →
      onLink loc target rest = .ok place → Named place.location)
    (hnames : ∀ name ∈ names, name ≠ [] ∧ slash ∉ name) (hloc : Named loc)
    (h : tree.descend follow onLink loc names = .ok place) : Named place.location := by
  induction names generalizing loc with
  | nil =>
    cases h
    exact hloc
  | cons name rest ih =>
    obtain ⟨⟨hne, hslash⟩, hrest⟩ := List.forall_mem_cons.mp hnames
    rw [descend] at h
    split at h
    · by_cases hhere : name = Name.here
      · rw [if_pos hhere] at h
        exact ih hrest hloc h
      rw [if_neg hhere] at h
      by_cases hup : name = Name.up
      · rw [if_pos hup] at h
        exact ih hrest (hloc.of_isPrefix (List.dropLast_prefix loc)) h
      rw [if_neg hup] at h
      split at h
      · cases h
      have hstep : Named (loc ++ [name]) := named_concat hloc ⟨hne, hslash, hhere, hup⟩
      split at h
      · split at h
        · cases h
          exact hstep
        · cases h
      · split at h
        · exact honLink _ _ _ _ hloc hrest h
        · cases h
          exact hstep
      · exact ih hrest hstep h
    · cases h
    · cases h

theorem named_walk {links : Nat} (hnames : ∀ name ∈ names, name ≠ [] ∧ slash ∉ name)
    (hloc : Named loc) (h : tree.walk follow links loc names = .ok place) :
    Named place.location := by
  induction links generalizing loc names place with
  | zero => exact named_descend (fun _ _ _ _ _ _ h => by cases h) hnames hloc h
  | succ links ih =>
    refine named_descend (fun loc target rest place hloc hrest h => ?_) hnames hloc h
    change tree.walk follow links _ ((⟨target⟩ : Path).names ++ rest) = .ok place at h
    refine ih (fun name hname => ?_) ?_ h
    · rcases List.mem_append.mp hname with h | h
      · exact Path.mem_names h
      · exact hrest name h
    · split
      · exact named_nil
      · exact hloc

/-- A path leads to a proper location. -/
theorem named_locate (h : tree.locate path follow = .ok place) : Named place.location := by
  unfold locate at h
  split at h
  · cases h
  split at h
  · cases h
  exact named_walk (fun _ hname => Path.mem_names hname) named_nil h

theorem named_resolve (h : tree.resolve path = .ok place) : Named place.location := by
  unfold resolve at h
  split at h
  · cases h
  · exact named_locate h

theorem named_resolve? (h : tree.resolve? path = .ok loc) : Named loc :=
  named_resolve (resolve?_eq_ok_iff_found.mp h)

end ConsoleSweep.FileTree
