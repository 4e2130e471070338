import ConsoleSweep.Path

/-!
# File trees

A file tree is a finite set of locations, each holding a file, a directory or a symbolic link. A
location is the list of names from the top down, all of them names that an entry of a directory can
have; the top itself is always a directory. Nothing is said about who owns a file, who may read or
write it, or when it was changed: everybody may do everything.

The locations are kept in ascending order, names compared byte by byte. In that order a directory
comes right before everything below it, so reading the tree from front to back visits it directory
by directory, siblings in order.
-/

namespace ConsoleSweep

/-- Where something is: the names from the top of the tree down to it. -/
abbrev Location := List Name

namespace Location

/-- Every name in a location is proper. -/
def Named (loc : Location) : Prop := ∀ name ∈ loc, Name.Proper name

theorem named_nil : Named [] := fun _ hname => nomatch hname

theorem Named.of_isPrefix {loc before : Location} (h : Named loc) (hstart : before <+: loc) :
    Named before :=
  fun name hname => h name (hstart.subset hname)

theorem named_concat {loc : Location} {name : Name} (hloc : Named loc) (hname : name.Proper) :
    Named (loc ++ [name]) := by
  intro other hother
  rcases List.mem_append.mp hother with h | h
  · exact hloc other h
  · rw [List.mem_singleton.mp h]
    exact hname

theorem lt_of_not_lt_of_ne {a b : Location} (h : ¬a < b) (hne : a ≠ b) : b < a :=
  Std.lt_of_le_of_ne (Std.not_lt.mp h) (Ne.symm hne)

end Location

/-- What is found at a location. -/
inductive Node where
  | file (data : Bytes)
  | dir
  | link (target : Bytes)
  deriving DecidableEq, Repr, Inhabited

/-- Puts a node at a location of an ordered list of locations. -/
def putEntry (loc : Location) (node : Node) :
    List (Location × Node) → List (Location × Node)
  | [] => [(loc, node)]
  | entry :: rest =>
    if loc < entry.1 then (loc, node) :: entry :: rest
    else if loc = entry.1 then (loc, node) :: rest
    else entry :: putEntry loc node rest

/-- Locations in ascending order, each at most once. -/
def Ordered (entries : List (Location × Node)) : Prop :=
  entries.Pairwise fun a b => a.1 < b.1

theorem mem_putEntry {loc : Location} {node : Node} {entries : List (Location × Node)}
    {entry : Location × Node} (h : entry ∈ putEntry loc node entries) :
    entry = (loc, node) ∨ entry ∈ entries := by
  induction entries with
  | nil => simpa [putEntry] using h
  | cons first rest ih =>
    unfold putEntry at h
    split at h
    · simpa using h
    · split at h
      · rcases List.mem_cons.mp h with h | h
        · exact .inl h
        · exact .inr (List.mem_cons_of_mem _ h)
      · rcases List.mem_cons.mp h with h | h
        · exact .inr (h ▸ List.mem_cons_self)
        · exact (ih h).imp_right (List.mem_cons_of_mem _)

theorem ordered_putEntry {loc : Location} {node : Node} {entries : List (Location × Node)}
    (h : Ordered entries) : Ordered (putEntry loc node entries) := by
  induction entries with
  | nil => simp [putEntry, Ordered]
  | cons first rest ih =>
    have ⟨below, ordered⟩ := List.pairwise_cons.mp h
    unfold putEntry
    split
    next lt =>
      refine List.pairwise_cons.mpr ⟨fun entry mem => ?_, h⟩
      rcases List.mem_cons.mp mem with rfl | mem
      · exact lt
      · exact Std.lt_trans lt (below entry mem)
    next nlt =>
      split
      next eq => subst eq; exact List.pairwise_cons.mpr ⟨below, ordered⟩
      next ne =>
        refine List.pairwise_cons.mpr ⟨fun entry mem => ?_, ih ordered⟩
        rcases mem_putEntry mem with rfl | mem
        · exact Location.lt_of_not_lt_of_ne nlt ne
        · exact below entry mem

/-- A file tree. -/
structure FileTree where
  entries : List (Location × Node)
  ordered : Ordered entries
  named : ∀ entry ∈ entries, entry.1.Named
  deriving DecidableEq

namespace FileTree

/-- The tree with nothing in it. -/
def empty : FileTree := ⟨[], List.Pairwise.nil, fun _ hentry => nomatch hentry⟩

instance : Inhabited FileTree := ⟨empty⟩

/-- What is at a location. The top is a directory. -/
def get? (tree : FileTree) (loc : Location) : Option Node :=
  if loc = [] then some .dir else (tree.entries.find? (·.1 == loc)).map Prod.snd

/-- Puts a node at a location. -/
def put (tree : FileTree) (loc : Location) (node : Node) (hloc : loc.Named) : FileTree where
  entries := putEntry loc node tree.entries
  ordered := ordered_putEntry tree.ordered
  named entry hentry := by
    rcases mem_putEntry hentry with rfl | hentry
    · exact hloc
    · exact tree.named entry hentry

/-- Removes a location and everything below it. -/
def erase (tree : FileTree) (loc : Location) : FileTree where
  entries := tree.entries.filter fun entry => !loc.isPrefixOf entry.1
  ordered := tree.ordered.filter _
  named entry hentry := tree.named entry (List.mem_filter.mp hentry).1

/-- Everything below a location, in order, each with the names that lead from there to it. -/
def below (tree : FileTree) (loc : Location) : List (Location × Node) :=
  tree.entries.filterMap fun (place, node) =>
    if loc.isPrefixOf place && loc != place then some (place.drop loc.length, node) else none

/-- Everything in the tree with its path from the top, ordered by the bytes of the path. -/
def listing (tree : FileTree) : List (Path × Node) :=
  (tree.entries.map fun (loc, node) => (Path.ofNames loc, node)).mergeSort
    fun a b => a.1.bytes ≤ b.1.bytes

end FileTree

end ConsoleSweep
