import ConsoleSweep.Proofs.FileTree.Shape
import ConsoleSweep.Proofs.Text.Utf8

/-!
# Reading and rewriting the file a path leads to

A path can be read as text exactly when it leads to a file that holds the encoding of that text
(`readText_eq_ok_iff`), and what can be read can be rewritten: the new bytes go to the location the
path leads to (`write_of_file`), through any links on the way.
-/

namespace ConsoleSweep.FileTree

variable {tree : FileTree} {path : Path} {loc : Location}

/-- The text of the file a path leads to, or none if it cannot be read. -/
def textOf (tree : FileTree) (path : Path) : String := (tree.readText path).toOption.getD ""

theorem textOf_of_readText {text : String} (h : tree.readText path = .ok text) :
    tree.textOf path = text := by
  rw [textOf, h]
  rfl

/-- What reading a node as text gives. -/
def contents : Option Node → Except Fault String
  | some (.file data) =>
    match Utf8.decode? data with
    | some text => .ok text
    | none => .error .notText
  | some .dir => .error .isADirectory
  | some (.link _) => .error .tooManyLinks
  | none => .error .notFound

/-- Reading a path is reading what it leads to. -/
theorem readText_eq (tree : FileTree) (path : Path) :
    tree.readText path = (do contents (tree.get? (← tree.resolve? path))) := by
  rw [readText, read, stat]
  cases tree.resolve? path with
  | error fault => rfl
  | ok loc =>
    simp only [bind, Except.bind]
    cases tree.get? loc with
    | none => rfl
    | some node => cases node <;> rfl

theorem contents_eq_ok_iff {node : Option Node} {text : String} :
    contents node = .ok text ↔ node = some (.file (Utf8.encode text)) := by
  cases node with
  | none => simp [contents]
  | some node =>
    cases node with
    | dir => simp [contents]
    | link target => simp [contents]
    | file data =>
      simp only [contents, Option.some.injEq, Node.file.injEq, ← Utf8.decode?_eq_some_iff]
      cases Utf8.decode? data <;> simp

/-- A path can be read as a text exactly when it leads to a file with its encoding. -/
theorem readText_eq_ok_iff {text : String} :
    tree.readText path = .ok text ↔
      ∃ loc, tree.resolve? path = .ok loc ∧ tree.get? loc = some (.file (Utf8.encode text)) := by
  rw [readText_eq]
  cases tree.resolve? path with
  | error fault => simp [bind, Except.bind]
  | ok loc => simp [bind, Except.bind, contents_eq_ok_iff]

/-- Writing to a path puts the bytes where the path leads. -/
theorem write_of_file {old data : Bytes} (hloc : tree.resolve? path = .ok loc)
    (hfile : tree.get? loc = some (.file old)) :
    tree.write path data = .ok (tree.put loc (.file data) (named_resolve? hloc)) := by
  have hplace := resolve?_eq_ok_iff_found.mp hloc
  rw [write]
  split
  next place hfound =>
    cases hplace.symm.trans hfound
    simp only [writeAt, hfile]
  next fault hfault => cases hplace.symm.trans hfault

end ConsoleSweep.FileTree
