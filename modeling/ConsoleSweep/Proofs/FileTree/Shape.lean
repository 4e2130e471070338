import ConsoleSweep.FileTree.Access
import ConsoleSweep.Proofs.FileTree.Store

/-!
# What rewriting a file leaves as it is

The shape of a tree is everything but the bytes of its files: which entries there are, of which
kind, and where the links point. Putting new bytes into a file keeps the shape
(`sameShape_put_file`), and looking up a path sees nothing but the shape (`SameShape.resolve`). So
while files are rewritten every path keeps leading where it led.
-/

namespace ConsoleSweep

/-- A node without the bytes of a file. -/
def Node.shape : Node → Node
  | .file _ => .file []
  | .dir => .dir
  | .link target => .link target

/-- What a look-up finds at one location of two trees of one shape. -/
inductive Alike : Option Node → Option Node → Prop where
  | none : Alike none none
  | file (data data' : Bytes) : Alike (some (.file data)) (some (.file data'))
  | dir : Alike (some .dir) (some .dir)
  | link (target : Bytes) : Alike (some (.link target)) (some (.link target))

theorem alike_of_shape_eq {a b : Option Node} (h : a.map Node.shape = b.map Node.shape) :
    Alike a b := by
  rcases a with _ | _ | _ | target <;> rcases b with _ | _ | _ | target' <;>
    simp only [Option.map_some, Option.map_none, Node.shape, Option.some.injEq, reduceCtorEq,
      Node.link.injEq] at h
  case none.none => exact .none
  case some.file.some.file => exact .file _ _
  case some.dir.some.dir => exact .dir
  case some.link.some.link => exact h ▸ .link _

namespace FileTree

/-- A tree without the bytes of its files. -/
def shape (tree : FileTree) : List (Location × Node) :=
  tree.entries.map fun e => (e.1, e.2.shape)

/-- Two trees that differ at most in the bytes of files: the same entries, of the same kinds, with
the same link targets. -/
def SameShape (before after : FileTree) : Prop := before.shape = after.shape

variable {before after last : FileTree}

@[refl] theorem SameShape.refl (tree : FileTree) : tree.SameShape tree := Eq.refl tree.shape

theorem SameShape.symm (h : before.SameShape after) : after.SameShape before := Eq.symm h

theorem SameShape.trans (h : before.SameShape after) (h' : after.SameShape last) :
    before.SameShape last := Eq.trans h h'

/-- Putting new bytes into a file keeps the shape. -/
theorem sameShape_put_file {tree : FileTree} {loc : Location} {hnamed : loc.Named}
    {old data : Bytes} (h : tree.get? loc = some (.file old)) :
    tree.SameShape (tree.put loc (.file data) hnamed) := by
  have hmem := mem_entries_of_get? (ne_nil_of_get?_file h) h
  show tree.entries.map _ = (putEntry loc (.file data) tree.entries).map _
  rw [putEntry_eq_map tree.ordered hmem, List.map_map]
  refine List.map_congr_left fun ⟨l, n⟩ he => ?_
  simp only [Function.comp_apply]
  split
  next heq =>
    cases heq
    rw [tree.ordered.eq_of_mem he hmem]
    rfl
  next => rfl

/-! ## Looking up -/

namespace SameShape

theorem alike (h : before.SameShape after) (loc : Location) :
    Alike (before.get? loc) (after.get? loc) := by
  have hmap : ∀ tree : FileTree, ((tree.entries.find? (·.1 == loc)).map Prod.snd).map Node.shape =
      (tree.shape.find? (·.1 == loc)).map Prod.snd := by
    intro tree
    rw [shape, List.find?_map]
    simp [Function.comp_def]
  apply alike_of_shape_eq
  by_cases hloc : loc = []
  · simp [get?, hloc]
  · simp only [get?, if_neg hloc, hmap]
    rw [h]

/-- Names lead to the same place, as long as links are followed alike. -/
theorem descend (h : before.SameShape after) (follow : Bool)
    {onLink onLink' : Location → Bytes → List Name → Except Fault Place}
    (hlink : ∀ loc target rest, onLink loc target rest = onLink' loc target rest)
    (names : List Name) (loc : Location) :
    before.descend follow onLink loc names = after.descend follow onLink' loc names := by
  induction names generalizing loc with
  | nil => rfl
  | cons name rest ih =>
    rw [FileTree.descend, FileTree.descend]
    have hhere := h.alike loc
    generalize before.get? loc = here, after.get? loc = here' at hhere
    cases hhere with
    | none => rfl
    | file => rfl
    | link => rfl
    | dir =>
      have hthere := h.alike (loc ++ [name])
      generalize before.get? (loc ++ [name]) = there, after.get? (loc ++ [name]) = there' at hthere
      cases hthere <;> simp only [ih, hlink]

theorem walk (h : before.SameShape after) (follow : Bool) (links : Nat) (loc : Location)
    (names : List Name) :
    before.walk follow links loc names = after.walk follow links loc names := by
  induction links generalizing loc names with
  | zero => exact h.descend follow (fun _ _ _ => rfl) names loc
  | succ links ih => exact h.descend follow (fun _ _ _ => ih _ _) names loc

theorem locate (h : before.SameShape after) (path : Path) (follow : Bool) :
    before.locate path follow = after.locate path follow := by
  rw [FileTree.locate, FileTree.locate, h.walk]

/-- A path leads to the same place in trees of one shape. -/
theorem resolve (h : before.SameShape after) (path : Path) :
    before.resolve path = after.resolve path := by
  rw [FileTree.resolve, FileTree.resolve, h.locate]

theorem resolve? (h : before.SameShape after) (path : Path) :
    before.resolve? path = after.resolve? path := by
  rw [FileTree.resolve?, FileTree.resolve?, h.resolve]

/-- What a path leads to is of the same kind. -/
theorem stat (h : before.SameShape after) (path : Path) :
    (before.stat path).map Node.shape = (after.stat path).map Node.shape := by
  rw [FileTree.stat, FileTree.stat, h.resolve?]
  cases after.resolve? path with
  | error fault => rfl
  | ok loc =>
    have hthere := h.alike loc
    simp only [bind, Except.bind]
    generalize before.get? loc = there, after.get? loc = there' at hthere
    cases hthere <;> rfl

theorem isFile (h : before.SameShape after) (path : Path) :
    before.isFile path = after.isFile path := by
  have hshape : ∀ tree : FileTree, tree.isFile path =
      (((tree.stat path).map Node.shape).toOption == some (.file [])) := by
    intro tree
    rw [FileTree.isFile]
    rcases tree.stat path with _ | _ | _ | _ <;> rfl
  rw [hshape, hshape, h.stat]

end SameShape

end FileTree

end ConsoleSweep
