import Mathlib.Data.List.Sort
import Mathlib.Tactic.MkIffOfInductiveProp
import ConsoleSweep.FileTree.Edit
import ConsoleSweep.Proofs.Collection.Candidate
import ConsoleSweep.Proofs.Collection.Members
import ConsoleSweep.Proofs.Sequence

/-!
# The order in which files are collected

Files are collected in the order of their paths, compared name by name and names byte by byte, and
no path twice (`components_pairwise`). Nothing needs to be sorted for that but each directory for
itself: `walk` goes through the names in a directory in order and goes down wherever it comes upon a
directory that is entered, and what it comes to is just what a run collects, in the same order
(`among_eq_walk`).

That siblings are in order makes a walk as a whole so, because all it finds below one of them starts
with the name of that one (`walk_pairwise`).
-/

namespace ConsoleSweep

namespace FileTree

variable {tree : FileTree} {loc : Location} {name : Name}

/-- What is below a location is listed in order, each once. -/
theorem below_pairwise (tree : FileTree) (loc : Location) :
    (tree.below loc).Pairwise fun a b => a.1 < b.1 := by
  refine List.pairwise_filterMap.mpr (tree.ordered.imp ?_)
  rintro ⟨place, node⟩ ⟨place', node'⟩ hlt below hbelow below' hbelow'
  dsimp only at hbelow hbelow' hlt
  split at hbelow
  next hstart =>
    split at hbelow'
    next hstart' =>
      cases hbelow
      cases hbelow'
      rw [Bool.and_eq_true, List.isPrefixOf_iff_prefix] at hstart hstart'
      obtain ⟨rel, rfl⟩ := hstart.1
      obtain ⟨rel', rfl⟩ := hstart'.1
      rw [List.drop_left, List.drop_left]
      exact lt_of_append_lt hlt
    next => cases hbelow'
  next => cases hbelow

/-- The names in a directory, sorted. -/
def names (tree : FileTree) (loc : Location) : List Name :=
  ((tree.below loc).filterMap fun (rel, _) =>
    match rel with
    | [name] => some name
    | _ => none).mergeSort fun a b => a ≤ b

theorem mem_names_iff : name ∈ tree.names loc ↔ ∃ node, tree.get? (loc ++ [name]) = some node := by
  rw [names, List.mem_mergeSort, List.mem_filterMap]
  constructor
  · rintro ⟨⟨rel, node⟩, hbelow, hname⟩
    dsimp only at hname
    split at hname
    · cases hname
      exact ⟨node, (mem_below_iff.mp hbelow).2⟩
    · cases hname
  · rintro ⟨node, hget⟩
    exact ⟨([name], node), mem_below_iff.mpr ⟨List.cons_ne_nil _ _, hget⟩, rfl⟩

theorem names_pairwise (tree : FileTree) (loc : Location) :
    (tree.names loc).Pairwise (· < ·) := by
  have hnodup : (tree.names loc).Nodup := by
    refine (List.mergeSort_perm _ _).nodup_iff.mpr ?_
    refine List.pairwise_filterMap.mpr ((tree.below_pairwise loc).imp ?_)
    rintro ⟨rel, node⟩ ⟨rel', node'⟩ hlt name hname name' hname'
    dsimp only at hname hname' hlt
    split at hname <;> cases hname
    split at hname' <;> cases hname'
    rintro rfl
    exact Std.lt_irrefl hlt
  have hsorted : (tree.names loc).Pairwise (· ≤ ·) := by
    have htrans : ∀ a b c : Name, decide (a ≤ b) = true → decide (b ≤ c) = true →
        decide (a ≤ c) = true := by
      simp only [decide_eq_true_eq]
      exact fun a b c => Std.le_trans
    have htotal : ∀ a b : Name, (decide (a ≤ b) || decide (b ≤ a)) = true := by
      simp only [Bool.or_eq_true, decide_eq_true_eq]
      exact fun a b => Std.le_total
    exact (List.pairwise_mergeSort htrans htotal _).imp of_decide_eq_true
  refine (hsorted.and hnodup).imp fun ⟨hle, hne⟩ => ?_
  exact Std.lt_of_le_of_ne hle hne

end FileTree

namespace Collection

open FileTree (names_pairwise)

variable {s : Selection} {tree : FileTree} {root : Path} {loc : Location} {depth : ℕ}
  {rel dir rest : List Name} {name : Name} {inside : List (List Name)} {files : List Path}

/-! ## A walk -/

section Walk

variable (s : Selection) (tree : FileTree) (root : Path) (loc : Location)

/-- What a walk comes to at one path: what is inside if it leads to a directory that is entered, and
the path itself if it is collected. -/
def visit (inside : List (List Name)) (rel : List Name) : List (List Name) :=
  match tree.get? (loc ++ rel) with
  | some .dir => if admits s root rel true then inside else []
  | some node => if collects s tree root rel node then [rel] else []
  | none => []

/-- What a walk through a directory comes to, so many levels deep: it goes through the names there,
in order, and goes down before it goes on. -/
def walk : (depth : ℕ) → (dir : List Name) → List (List Name)
  | 0, _ => []
  | depth + 1, dir => (tree.names (loc ++ dir)).flatMap fun name =>
    visit s tree root loc (walk depth (dir ++ [name])) (dir ++ [name])

end Walk

theorem mem_visit_iff {other : List Name} : other ∈ visit s tree root loc inside rel ↔
    (tree.get? (loc ++ rel) = some .dir ∧ admits s root rel true = true ∧ other ∈ inside) ∨
      (other = rel ∧ ∃ node, tree.get? (loc ++ rel) = some node ∧
        collects s tree root rel node = true) := by
  unfold visit
  cases tree.get? (loc ++ rel) with
  | none => simp
  | some node =>
    cases node with
    | dir => simp [collects]
    | file data => simp [and_comm]
    | link target => simp [and_comm]

/-- What a walk through a directory comes to is below it. -/
theorem exists_of_mem_walk (h : rel ∈ walk s tree root loc depth dir) :
    ∃ name rest, rel = dir ++ name :: rest := by
  induction depth generalizing dir with
  | zero => cases h
  | succ depth ih =>
    obtain ⟨name, -, hvisit⟩ := List.mem_flatMap.mp h
    rcases mem_visit_iff.mp hvisit with ⟨-, -, hinside⟩ | ⟨rfl, -⟩
    · obtain ⟨name', rest, rfl⟩ := ih hinside
      exact ⟨name, name' :: rest, by simp⟩
    · exact ⟨name, [], rfl⟩

/-- What is found at a name in a directory starts with that name. -/
theorem exists_of_mem_visit
    (h : rel ∈ visit s tree root loc (walk s tree root loc depth (dir ++ [name])) (dir ++ [name])) :
    ∃ rest, rel = dir ++ name :: rest := by
  rcases mem_visit_iff.mp h with ⟨-, -, hinside⟩ | ⟨rfl, -⟩
  · obtain ⟨name', rest, rfl⟩ := exists_of_mem_walk hinside
    exact ⟨name' :: rest, by simp⟩
  · exact ⟨[], rfl⟩

/-- **A walk is in order**, as the names in each directory are. -/
theorem walk_pairwise (s : Selection) (tree : FileTree) (root : Path) (loc : Location) (depth : ℕ)
    (dir : List Name) : (walk s tree root loc depth dir).Pairwise (· < ·) := by
  induction depth generalizing dir with
  | zero => exact List.Pairwise.nil
  | succ depth ih =>
    refine List.pairwise_flatMap.mpr ⟨fun name _ => ?_, (names_pairwise tree _).imp ?_⟩
    · unfold visit
      split
      · split
        · exact ih _
        · exact List.Pairwise.nil
      · split
        · exact List.pairwise_singleton _ _
        · exact List.Pairwise.nil
      · exact List.Pairwise.nil
    · -- below different names, the names decide
      intro name name' hlt rel hrel rel' hrel'
      obtain ⟨rest, rfl⟩ := exists_of_mem_visit hrel
      obtain ⟨rest', rfl⟩ := exists_of_mem_visit hrel'
      exact List.append_left_lt (List.cons_lt_cons_iff.mpr (.inl hlt))

/-- All on the way down from a directory to what is below it: the first step, and the way from
there. -/
theorem forall_way_cons {P : List Name → Prop} :
    (∀ way, way ≠ [] → way <+: name :: rest → way ≠ name :: rest → P way) ↔
      rest = [] ∨ P [name] ∧ ∀ way, way ≠ [] → way <+: rest → way ≠ rest → P (name :: way) := by
  constructor
  · intro h
    rcases eq_or_ne rest [] with hnil | hne
    · exact .inl hnil
    · refine .inr ⟨h _ (by simp) (by simp) (by simpa using hne.symm), ?_⟩
      intro way hway hstart hproper
      exact h _ (by simp) (by simpa using hstart) (by simpa using hproper)
  · intro h way hne hstart hproper
    obtain ⟨first, later, rfl⟩ := List.exists_cons_of_ne_nil hne
    obtain ⟨rfl, hlater⟩ := List.cons_prefix_cons.mp hstart
    have hproper' : later ≠ rest := fun heq => hproper (by rw [heq])
    rcases h with rfl | ⟨hfirst, h⟩
    · exact absurd (List.prefix_nil.mp hlater) hproper'
    · rcases eq_or_ne later [] with rfl | hlater'
      · exact hfirst
      · exact h later hlater' hlater hproper'

/-- Names lead down from a directory, through directories that are entered, to something that is
collected. -/
@[mk_iff]
structure Leads (s : Selection) (tree : FileTree) (root : Path) (loc : Location)
    (dir rest : List Name) : Prop where
  enters : ∀ way, way ≠ [] → way <+: rest → way ≠ rest →
    tree.get? (loc ++ (dir ++ way)) = some .dir ∧ admits s root (dir ++ way) true = true
  collects : ∃ node, tree.get? (loc ++ (dir ++ rest)) = some node ∧
    Collection.collects s tree root (dir ++ rest) node = true

/-- The first name leads to what is collected, or to a directory that is entered and from which the
other names lead on. -/
theorem leads_cons_iff : Leads s tree root loc dir (name :: rest) ↔
    (tree.get? (loc ++ (dir ++ [name])) = some .dir ∧ admits s root (dir ++ [name]) true = true ∧
        rest ≠ [] ∧ Leads s tree root loc (dir ++ [name]) rest) ∨
      (rest = [] ∧ ∃ node, tree.get? (loc ++ (dir ++ [name])) = some node ∧
        collects s tree root (dir ++ [name]) node = true) := by
  rw [leads_iff, leads_iff, forall_way_cons]
  by_cases hrest : rest = []
  · subst hrest
    simp
  · simp [hrest, and_assoc]

/-- A walk comes to what names lead to, as many as it is deep. -/
theorem mem_walk_iff : rel ∈ walk s tree root loc depth dir ↔
    ∃ rest, rel = dir ++ rest ∧ rest ≠ [] ∧ rest.length ≤ depth ∧
      Leads s tree root loc dir rest := by
  induction depth generalizing dir with
  | zero =>
    refine iff_of_false List.not_mem_nil ?_
    rintro ⟨rest, -, hne, hlength, -⟩
    exact hne (List.eq_nil_of_length_eq_zero (Nat.le_zero.mp hlength))
  | succ depth ih =>
    simp only [walk, List.mem_flatMap, mem_visit_iff, FileTree.mem_names_iff, ih,
      List.append_assoc]
    constructor
    · rintro ⟨name, -, ⟨hdir, hadmits, rest, rfl, hne, hlength, hleads⟩ | ⟨rfl, hcollects⟩⟩
      · exact ⟨name :: rest, rfl, List.cons_ne_nil _ _, Nat.succ_le_succ hlength,
          leads_cons_iff.mpr (.inl ⟨hdir, hadmits, hne, hleads⟩)⟩
      · exact ⟨[name], rfl, List.cons_ne_nil _ _, Nat.succ_le_succ (Nat.zero_le _),
          leads_cons_iff.mpr (.inr ⟨rfl, hcollects⟩)⟩
    · rintro ⟨rest, rfl, hne, hlength, hleads⟩
      obtain ⟨name, rest, rfl⟩ := List.exists_cons_of_ne_nil hne
      rcases leads_cons_iff.mp hleads with
        ⟨hdir, hadmits, hne, hleads⟩ | ⟨rfl, node, hnode, hcollects⟩
      · exact ⟨name, ⟨_, hdir⟩, .inl ⟨hdir, hadmits, rest, rfl, hne,
          Nat.le_of_succ_le_succ hlength, hleads⟩⟩
      · exact ⟨name, ⟨node, hnode⟩, .inr ⟨rfl, node, hnode, hcollects⟩⟩

/-- What leads from the root is a member of the collection. -/
theorem leads_nil_iff : rel ≠ [] ∧ Leads s tree root loc [] rel ↔
    ∃ node, Member s tree root (tree.below loc) rel node := by
  constructor
  · rintro ⟨hne, henters, node, hnode, hcollects⟩
    exact ⟨node, FileTree.mem_below_iff.mpr ⟨hne, hnode⟩, reached_iff.mpr henters, hcollects⟩
  · rintro ⟨node, hthere, hreached, hcollects⟩
    obtain ⟨hne, hnode⟩ := FileTree.mem_below_iff.mp hthere
    exact ⟨hne, reached_iff.mp hreached, node, hnode, hcollects⟩

/-! ## What a run collects -/

/-- The members of a collection that is not stopped are in order. -/
theorem exists_rels_of_among (h : among s tree root (tree.below loc) = ⟨files, none⟩) :
    ∃ rels : List (List Name), files = rels.map .ofNames ∧ rels.Pairwise (· < ·) ∧
      ∀ rel, rel ∈ rels ↔ ∃ node, Member s tree root (tree.below loc) rel node := by
  obtain ⟨-, rfl⟩ := among_eq_iff.mp h
  refine ⟨((tree.below loc).filter fun e => reached s root (tree.below loc) e.1 &&
    collects s tree root e.1 e.2).map Prod.fst, by rw [List.map_map]; rfl, ?_, fun rel => ?_⟩
  · exact List.pairwise_map.mpr ((tree.below_pairwise loc).filter _)
  · simp only [List.mem_map, List.mem_filter, Bool.and_eq_true]
    constructor
    · rintro ⟨⟨rel, node⟩, ⟨hthere, hreached, hcollects⟩, rfl⟩
      exact ⟨node, hthere, hreached, hcollects⟩
    · rintro ⟨node, hthere, hreached, hcollects⟩
      exact ⟨(rel, node), ⟨hthere, hreached, hcollects⟩, rfl⟩

/-- **What a walk comes to is collected, in that order**, if it is as deep as the tree. -/
theorem among_eq_walk (h : among s tree root (tree.below loc) = ⟨files, none⟩)
    (hdeep : ∀ e ∈ tree.below loc, e.1.length ≤ depth) :
    files = (walk s tree root loc depth []).map .ofNames := by
  obtain ⟨rels, rfl, hordered, hmembers⟩ := exists_rels_of_among h
  congr 1
  refine hordered.eq_of_mem_iff (walk_pairwise s tree root loc depth []) fun rel => ?_
  rw [hmembers, mem_walk_iff, ← leads_nil_iff]
  constructor
  · rintro ⟨hne, hleads⟩
    obtain ⟨node, hmember⟩ := leads_nil_iff.mp ⟨hne, hleads⟩
    exact ⟨rel, rfl, hne, hdeep _ hmember.there, hleads⟩
  · rintro ⟨rest, rfl, hne, -, hleads⟩
    exact ⟨hne, hleads⟩

/-- **What a run collects is in order**: the paths strictly increase, compared name by name. -/
theorem components_pairwise {o : Options} (h : collect o tree = .ok files) :
    files.Pairwise fun p q => p.components < q.components := by
  obtain ⟨loc, s, -, -, -, ⟨-, rfl⟩ | ⟨-, hamong⟩⟩ := collect_eq_ok_iff_among.mp h
  · exact List.Pairwise.nil
  · obtain ⟨rels, rfl, hordered, hmembers⟩ := exists_rels_of_among hamong
    refine List.pairwise_map.mpr (hordered.imp_of_mem fun {rel rel'} hrel hrel' hlt => ?_)
    obtain ⟨node, hmember⟩ := (hmembers rel).mp hrel
    obtain ⟨node', hmember'⟩ := (hmembers rel').mp hrel'
    rwa [Path.components_ofNames (FileTree.named_of_mem_below hmember.there),
      Path.components_ofNames (FileTree.named_of_mem_below hmember'.there)]

/-- A run collects what a walk comes to that is as deep as the tree, unless its root is the name of
standard input. -/
theorem collect_eq_walk {o : Options} (h : collect o tree = .ok files)
    (hinput : o.root.components ≠ [standardInput]) :
    ∃ loc s, tree.resolve? o.root = .ok loc ∧ Selection.ofOptions o = .ok s ∧
      ∀ depth, (∀ e ∈ tree.below loc, e.1.length ≤ depth) →
        files = (walk s tree o.root loc depth []).map .ofNames := by
  obtain ⟨loc, s, hloc, -, hs, hnothing | ⟨-, hamong⟩⟩ := collect_eq_ok_iff_among.mp h
  · exact absurd hnothing.1 hinput
  · exact ⟨loc, s, hloc, hs, fun depth hdeep => among_eq_walk hamong hdeep⟩

end Collection

end ConsoleSweep
