import ConsoleSweep.FileTree.Access
import ConsoleSweep.Log.Basic
import ConsoleSweep.Selection

/-!
# Collecting files

A run first collects the files to look at: every file below the root that the selection admits, and
every link there that leads to a file. Links to directories are not entered. A directory is entered
unless the selection rejects it, or says nothing about it and its name is hidden.

The tree already lists a directory before what is below it and siblings in order, so the files come
out in the order of their paths, compared name by name.
-/

namespace ConsoleSweep

/-- Why collecting stops. -/
inductive CollectFault where
  /-- The root cannot be looked up. -/
  | unreadable (root : Path) (fault : Fault)
  | notADirectory (root : Path)
  | badPattern (pattern : String) (fault : BadSelection)
  /-- A directory below the root cannot be listed. -/
  | unlistable (dir : Path) (fault : Fault)
  deriving DecidableEq, Repr

/-- The fault in words, followed by what it was caused by. -/
def CollectFault.chain : CollectFault → List String
  | unreadable root fault => ["Failed to read '" ++ root.display ++ "'", fault.message]
  | notADirectory root => ["'" ++ root.display ++ "' is not a directory"]
  | badPattern pattern fault => ["Invalid glob pattern '" ++ pattern ++ "'", fault.message]
  | unlistable dir fault =>
    ["Failed to walk directory tree",
      dir.display ++ ": IO error for operation on " ++ dir.display ++ ": " ++ fault.message]

/-- The files collected, in order, and what stopped the collection early, if anything did. -/
structure Collection where
  files : List Path
  stopped : Option CollectFault
  deriving DecidableEq, Repr

namespace Collection

/-- Whether a name is hidden: it starts with a dot. -/
def isHidden (name : Name) : Bool := name.head? == some dot

theorem isHidden_eq_false_iff {name : Name} :
    isHidden name = false ↔ name.head? ≠ some dot := by
  simp [isHidden]

/-- Drops `lead` from the front of a byte sequence that starts with it. -/
def dropLead? (lead bytes : Bytes) : Option Bytes :=
  if lead.isPrefixOf bytes then some (bytes.drop lead.length) else none

/-- Drops `./` from the front of a path that starts with it. -/
def withoutHere (bytes : Bytes) : Bytes := (dropLead? [dot, slash] bytes).getD bytes

/-- The bytes of a path as the selection sees them: seen from the root, with no separator in
front. -/
def candidate (root : Path) (path : Path) : Bytes :=
  let seen := withoutHere (withoutHere path.bytes)
  let base : Path := ⟨withoutHere root.bytes⟩
  if base.components == [Name.here] || !seen.contains slash then seen
  else
    match dropLead? base.bytes seen with
    | some rest => (dropLead? [slash] rest).getD rest
    | none => seen

/-- Whether something below the root is looked at. -/
def admits (s : Selection) (root : Path) (rel : List Name) (isDir : Bool) : Bool :=
  match s.verdict (candidate root (root.join (.ofNames rel))) isDir with
  | .selected => true
  | .rejected => false
  | .unmentioned => !isHidden (rel.getLastD [])

/-- The paths from the root to something below it, shortest first, leaving out both ends. -/
def ancestors (rel : List Name) : List (List Name) :=
  (List.range (rel.length - 1)).map fun k => rel.take (k + 1)

/-- Whether a directory below the root is entered, as long as those above it are. -/
def entered (s : Selection) (root : Path) (nodes : List (Location × Node)) (rel : List Name) :
    Bool :=
  nodes.contains (rel, .dir) && admits s root rel true

/-- Whether everything between the root and something below it is entered. -/
def reached (s : Selection) (root : Path) (nodes : List (Location × Node)) (rel : List Name) :
    Bool :=
  (ancestors rel).all (entered s root nodes)

/-- Whether something below the root that has been reached is collected. -/
def collects (s : Selection) (tree : FileTree) (root : Path) (rel : List Name) (node : Node) :
    Bool :=
  match node with
  | .dir => false
  | .file _ => admits s root rel false
  | .link _ => admits s root rel false && tree.isFile (root.join (.ofNames rel))

/-- Whether a directory that has been reached is entered but its path is too long to list it. -/
def tooLong (s : Selection) (root : Path) (rel : List Name) (node : Node) : Bool :=
  node == .dir && admits s root rel true &&
    FileTree.pathLimit ≤ (root.join (.ofNames rel)).bytes.length

/-- Collects among what is below the root: everything up to the first directory that cannot be
listed. -/
def among (s : Selection) (tree : FileTree) (root : Path) (nodes : List (Location × Node)) :
    Collection :=
  let seen := nodes.filter fun (rel, _) => reached s root nodes rel
  let listed := seen.takeWhile fun (rel, node) => !tooLong s root rel node
  { files := (listed.filter fun (rel, node) => collects s tree root rel node).map
      fun (rel, _) => .ofNames rel
    stopped := (seen.find? fun (rel, node) => tooLong s root rel node).map
      fun (rel, _) => .unlistable (root.join (.ofNames rel)) .nameTooLong }

/-- A root of this one name stands for standard input, below which there is nothing. -/
def standardInput : Name := [0x2D]

/-- Collects the files of a run. -/
def run (o : Options) (tree : FileTree) : Collection :=
  let fail (fault : CollectFault) : Collection := ⟨[], some fault⟩
  match tree.resolve? o.root with
  | .error fault => fail (.unreadable o.root fault)
  | .ok loc =>
    if tree.get? loc != some .dir then fail (.notADirectory o.root)
    else
      match Selection.ofOptions o with
      | .error (pattern, fault) => fail (.badPattern pattern fault)
      | .ok s =>
        if o.root.components == [standardInput] then ⟨[], none⟩
        else among s tree o.root (tree.below loc)

/-- What the log says about a collection. -/
def records (o : Options) (c : Collection) : List Log.Record :=
  let say (text : String) : Log.Record := ⟨.debug, .collector, text⟩
  (c.files.map fun file => say ("Collected " ++ file.display)) ++
    if c.stopped.isSome then []
    else [say ("Collected " ++ toString c.files.length ++ " file(s) under " ++ o.root.display ++
      " with pattern '" ++ o.pattern ++ "'.")]

end Collection

/-- The files of a run, or what stopped collecting them. -/
def collect (o : Options) (tree : FileTree) : Except CollectFault (List Path) :=
  let c := Collection.run o tree
  match c.stopped with
  | some fault => .error fault
  | none => .ok c.files

end ConsoleSweep
