import ConsoleSweep.Text.Parts
import ConsoleSweep.Text.Utf8

/-!
# Paths

A path is a non-empty-or-empty sequence of bytes in which `/` separates names. The same file may be
spelled in many ways, and the spelling shows in messages, so a path keeps its bytes; `names` is what
its spelling stands for when it is looked up.
-/

namespace ConsoleSweep

/-- The name of one file or directory. -/
abbrev Name := Bytes

/-- The byte that separates names. -/
def slash : UInt8 := 0x2F

/-- The byte that hides a name it starts. -/
def dot : UInt8 := 0x2E

/-- The name of the directory itself. -/
def Name.here : Name := [dot]

/-- The name of the parent directory. -/
def Name.up : Name := [dot, dot]

/-- A name that an entry of a directory can have: it is not empty, holds no separator, and does not
stand for the directory itself or its parent. -/
def Name.Proper (name : Name) : Prop :=
  name ≠ [] ∧ slash ∉ name ∧ name ≠ Name.here ∧ name ≠ Name.up

/-- A path as it is spelled. -/
structure Path where
  bytes : Bytes
  deriving DecidableEq, Repr, Inhabited

namespace Path

/-- The path spelled by a text. -/
def ofString (s : String) : Path := ⟨Utf8.encode s⟩

/-- The path that goes through the given names. -/
def ofNames (names : List Name) : Path := ⟨[slash].intercalate names⟩

/-- A path shown as text. -/
def display (p : Path) : String := Utf8.lossy p.bytes

/-- Whether a path starts at the top of the file tree. -/
def isAbsolute (p : Path) : Bool := p.bytes.head? == some slash

/-- Whether a path ends in a separator. -/
def endsInSlash (p : Path) : Bool := p.bytes.getLast? == some slash

/-- The names a path goes through. Repeated separators count once, and a separator at the end asks
for a directory, as a final `.` does. -/
def names (p : Path) : List Name :=
  (partsAt slash p.bytes).filter (· != []) ++ if p.endsInSlash then [Name.here] else []

/-- A path goes through names that are not empty and hold no separator. -/
theorem mem_names {p : Path} {name : Name} (h : name ∈ p.names) : name ≠ [] ∧ slash ∉ name := by
  rw [names, List.mem_append] at h
  rcases h with h | h
  · rw [List.mem_filter] at h
    exact ⟨by simpa using h.2, not_mem_of_mem_partsAt h.1⟩
  · split at h
    · rw [List.mem_singleton.mp h]
      decide
    · cases h

/-- The names a path goes through, without those that stay where they are: `.` counts only at the
start. An absolute path starts with `/`. -/
def components (p : Path) : List Name :=
  let all := (partsAt slash p.bytes).filter (· != [])
  if p.isAbsolute then [slash] :: all.filter (· != Name.here)
  else all.take 1 ++ (all.drop 1).filter (· != Name.here)

/-- The last component of a path, unless that leads to a parent. -/
def fileName? (p : Path) : Option Name :=
  match (p.components.filter (· != [slash])).getLast? with
  | some name => if name == Name.up || name == Name.here then none else some name
  | none => none

/-- The path of `rel` seen from the directory `root`. An absolute `rel` is already complete, and a
separator goes between the two unless `root` ends in one. -/
def join (root rel : Path) : Path :=
  if rel.isAbsolute || root.bytes == [] then rel
  else if root.endsInSlash then ⟨root.bytes ++ rel.bytes⟩
  else ⟨root.bytes ++ slash :: rel.bytes⟩

end Path

end ConsoleSweep
