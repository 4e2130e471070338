import ConsoleSweep.FileTree.Access

/-!
# Edits

The steps by which a tree is set up, and by which somebody else may change it: write a file, make a
directory or a link, each with the directories above it, and remove something with all that is
below.
-/

namespace ConsoleSweep

/-- One change to a file tree. -/
inductive Edit where
  | file (path : Path) (data : Bytes)
  | dir (path : Path)
  | link (path : Path) (target : Bytes)
  | remove (path : Path)
  deriving DecidableEq, Repr, Inhabited

namespace FileTree

/-- The names of the directories above a path. -/
def parentNames (path : Path) : List Name :=
  path.components.dropLast

/-- Makes something new where nothing is yet. -/
def make (tree : FileTree) (path : Path) (node : Node) : Except Fault FileTree :=
  match h : tree.locate path false with
  | .ok (.vacant loc) => .ok (tree.put loc node (named_locate h))
  | .ok (.found _) => .error .alreadyExists
  | .error fault => .error fault

/-- Whether names lead to a directory. -/
def leadsToDirectory (tree : FileTree) (path : Path) : Bool :=
  match tree.locate path true with
  | .ok (.found loc) => tree.get? loc == some .dir
  | _ => false

/-- Makes one directory unless it is there already. -/
def ensureDirectory (tree : FileTree) (path : Path) : Except Fault FileTree :=
  match tree.make path .dir with
  | .ok made => .ok made
  | .error fault => if tree.leadsToDirectory path then .ok tree else .error fault

/-- Makes a directory and those above it, the names given last first. The directories above are only
made if the directory itself cannot be made without them. -/
def ensureDirectories (tree : FileTree) : (reversed : List Name) → Except Fault FileTree
  | [] => .ok tree
  | last :: above =>
    let path := Path.ofNames (last :: above).reverse
    match tree.make path .dir with
    | .ok made => .ok made
    | .error .notFound => do (← tree.ensureDirectories above).ensureDirectory path
    | .error fault => if tree.leadsToDirectory path then .ok tree else .error fault

/-- Carries out an edit. -/
def apply (tree : FileTree) : Edit → Except Fault FileTree
  | .file path data => do
    let tree ← tree.ensureDirectories (parentNames path).reverse
    if path.endsInSlash then .error .isADirectory
    else
      match h : tree.locate path true with
      | .ok place => tree.writeAt data place (named_locate h)
      | .error fault => .error fault
  | .dir path => tree.ensureDirectories path.components.reverse
  | .link path target => do
    let tree ← tree.ensureDirectories (parentNames path).reverse
    if 0 ∈ target then .error .nulInPath
    else if target = [] then .error .notFound
    else tree.make path (.link target)
  | .remove path => do
    match ← tree.locate path false with
    | .vacant _ => .error .notFound
    | .found [] => .error .invalidArgument
    | .found loc => .ok (tree.erase loc)

/-- Carries out an edit, or leaves the tree alone if it fails. -/
def attempt (tree : FileTree) (edit : Edit) : FileTree :=
  match tree.apply edit with
  | .ok changed => changed
  | .error _ => tree

/-- Carries out edits one after the other, skipping those that fail. -/
def attemptAll (tree : FileTree) (edits : List Edit) : FileTree :=
  edits.foldl attempt tree

end FileTree

end ConsoleSweep
