import ConsoleSweep.FileTree.Resolve

/-!
# Reading and writing files

Links are followed, so writing through a link changes the file it leads to and leaves the link.
-/

namespace ConsoleSweep.FileTree

/-- What a path leads to. -/
def stat (tree : FileTree) (path : Path) : Except Fault Node := do
  let loc ← tree.resolve? path
  match tree.get? loc with
  | some node => .ok node
  | none => .error .notFound

/-- Whether a path leads to a file. -/
def isFile (tree : FileTree) (path : Path) : Bool :=
  match tree.stat path with
  | .ok (.file _) => true
  | _ => false

/-- The bytes of the file a path leads to. -/
def read (tree : FileTree) (path : Path) : Except Fault Bytes := do
  match ← tree.stat path with
  | .file data => .ok data
  | .dir => .error .isADirectory
  | .link _ => .error .tooManyLinks

/-- The text of the file a path leads to. -/
def readText (tree : FileTree) (path : Path) : Except Fault String := do
  match Utf8.decode? (← tree.read path) with
  | some text => .ok text
  | none => .error .notText

/-- Writes at the end of a look-up: replaces the bytes of the file there, or makes a new file. -/
def writeAt (tree : FileTree) (data : Bytes) :
    (place : Place) → place.location.Named → Except Fault FileTree
  | .vacant loc, hloc => .ok (tree.put loc (.file data) hloc)
  | .found loc, hloc =>
    match tree.get? loc with
    | some (.file _) => .ok (tree.put loc (.file data) hloc)
    | some .dir => .error .isADirectory
    | some (.link _) => .error .tooManyLinks
    | none => .error .notFound

/-- Writes the file a path leads to, making it if it is missing and its directory is there. -/
def write (tree : FileTree) (path : Path) (data : Bytes) : Except Fault FileTree :=
  match h : tree.resolve path with
  | .ok place => tree.writeAt data place (named_resolve h)
  | .error fault => .error fault

end ConsoleSweep.FileTree
