import ConsoleSweep.FileTree.Access
import ConsoleSweep.Theme.Basic
import ConsoleSweep.Yaml.Document
import ConsoleSweep.Yaml.Value

/-!
# Theme files

A theme file is a YAML mapping from entries to styles. A style is a mapping in which `fg` gives a
colour by name, or says that there is none; its other keys are not looked at. Entries that the file
leaves out keep their standard colours.

A file is read from top to bottom, and the first thing that is wrong with it decides the message,
whether that is a fault of the YAML or something that YAML allows and a theme does not.
-/

namespace ConsoleSweep.Theme

open Yaml (Mark Value)

/-- What stands where something else is expected. -/
inductive Found where
  | value (v : Value)
  | sequence
  | mapping
  deriving DecidableEq, Repr, Inhabited

/-- What stands somewhere, as messages show it. -/
def Found.describe : Found → String
  | value v => v.describe
  | sequence => "sequence"
  | mapping => "map"

/-- What YAML allows and a theme does not. -/
inductive Misfit where
  | wrongKind (found : Found) (expected : String)
  | wrongText (text : String) (expected : String)
  | unknownEntry (name : String)
  | unknownColor
  | repeatedColor
  deriving DecidableEq, Repr, Inhabited

/-- The key of a style that gives its colour. -/
def colorKey : String := "fg"

/-- A name between the marks that set names off in messages. -/
def marked (name : String) : String := "\x60" ++ name ++ "\x60"

/-- A misfit in words. -/
def Misfit.message : Misfit → String
  | wrongKind found expected => "invalid type: " ++ found.describe ++ ", expected " ++ expected
  | wrongText text expected =>
    "invalid value: " ++ Value.describeText text ++ ", expected " ++ expected
  | unknownEntry name =>
    "unknown variant " ++ marked name ++ ", expected one of " ++
      ", ".intercalate (Entry.all.map fun entry => marked entry.name)
  | unknownColor => Color.complaint
  | repeatedColor => "duplicate field " ++ marked colorKey

/-- Why a text is no theme. -/
inductive Defect where
  /-- It is not YAML. -/
  | yaml (fault : Yaml.Fault)
  /-- A part of it, given by the keys that lead there, does not fit into a theme. -/
  | misfit (keys : List String) (mark : Mark) (what : Misfit)
  | severalDocuments
  deriving DecidableEq, Repr, Inhabited

/-- A defect in words. -/
def Defect.message : Defect → String
  | yaml fault => fault.message
  | misfit keys mark what =>
    (if keys = [] then "" else ".".intercalate keys ++ ": ") ++ what.message ++ mark.suffix
  | severalDocuments => "deserializing from YAML containing more than one document is not supported"

/-- The defect of a document that breaks off. -/
def brokenOff (d : Yaml.Document) : Defect := .yaml (d.fault.getD default)

/-- The misfit of a text that stands where something else is expected. -/
def textMisfit (tag : Option Bytes) (plain : Bool) (text expected : String) : Misfit :=
  match Value.ofScalar tag plain text with
  | .ok v => .wrongKind (.value v) expected
  | .error meant => .wrongText text meant

/-- Whether a text says that there is nothing. -/
def saysNothing (plain : Bool) (text : String) : Bool :=
  plain && (text == "" || Value.nullWords.contains text)

/-- How a message refers to the value of a key. -/
def keyLabel : Yaml.Node → String
  | .scalar _ _ _ _ text => text
  | _ => "?"

/-- Reads the name of a colour, if the text gives one. `start` is where the style starts. -/
def readColorName (keys : List String) (start : Mark) (tag : Option Bytes) (plain : Bool)
    (text : String) : Except Defect (Option String) :=
  match tag with
  | none => .ok (if saysNothing plain text then none else some text)
  | some tag =>
    if plain && tag == Yaml.Tag.shared "null" then
      if Value.nullWords.contains text then .ok none
      else .error (.misfit keys start (.wrongText text "null"))
    else .ok (some text)

/-- Reads the colour of a style. -/
def readColor (d : Yaml.Document) (keys : List String) (start : Mark) (key value : Yaml.Node) :
    Except Defect (Option Color) :=
  let misfit (mark : Mark) (found : Found) : Defect :=
    .misfit (keys ++ [keyLabel key]) mark (.wrongKind found "a string")
  match d.follow value with
  | .scalar _ _ tag plain text => do
    match ← readColorName keys start tag plain text with
    | none => return none
    | some name =>
      match Color.parse? name with
      | some color => return some color
      | none => throw (.misfit keys start .unknownColor)
  | .sequence mark _ _ _ => .error (misfit mark .sequence)
  | .mapping mark _ _ _ => .error (misfit mark .mapping)
  | _ => .error (brokenOff d)

/-- Reads a key of a style. -/
def readStyleKey (d : Yaml.Document) (keys : List String) (key : Yaml.Node) :
    Except Defect String :=
  let misfit (mark : Mark) (found : Found) : Defect :=
    .misfit keys mark (.wrongKind found "field identifier")
  match d.follow key with
  | .scalar _ _ _ _ text => .ok text
  | .sequence mark _ _ _ => .error (misfit mark .sequence)
  | .mapping mark _ _ _ => .error (misfit mark .mapping)
  | _ => .error (brokenOff d)

/-- Reads the pairs of a style. `found` is its colour, if that has been read. -/
def readStylePairs (d : Yaml.Document) (keys : List String) (start : Mark) :
    (found : Option (Option Color)) → List (Yaml.Node × Yaml.Node) → Except Defect (Option Color)
  | found, [] => .ok (found.getD none)
  | found, (key, value) :: pairs => do
    if (← readStyleKey d keys key) = colorKey then
      if found.isSome then throw (.misfit keys start .repeatedColor)
      let color ← readColor d keys start key value
      readStylePairs d keys start (some color) pairs
    else if value.isWhole then readStylePairs d keys start found pairs
    else throw (brokenOff d)

/-- Reads a style. One that is left out has no colour. -/
def readStyle (d : Yaml.Document) (keys : List String) (node : Yaml.Node) :
    Except Defect (Option Color) :=
  match d.follow node with
  | .scalar mark _ tag plain text =>
    if plain && text == "" then .ok none
    else .error (.misfit keys mark (textMisfit tag plain text "struct ThemeStyle"))
  | .sequence mark _ _ _ =>
    .error (.misfit keys mark (.wrongKind .sequence "struct ThemeStyle"))
  | .mapping mark _ _ pairs => readStylePairs d keys mark none pairs
  | _ => .error (brokenOff d)

/-- The entry of a name. -/
def readEntryName (mark : Mark) (name : String) : Except Defect Entry :=
  match Entry.ofName? name with
  | some entry => .ok entry
  | none => .error (.misfit [] mark (.unknownEntry name))

/-- Reads the entry that a key gives: by its text or, if it has a tag of the text's own, by that
tag, in which case it has to say nothing else. `start` is where the theme starts. -/
def readEntry (d : Yaml.Document) (start : Mark) (key : Yaml.Node) : Except Defect Entry := do
  let collection (mark : Mark) (tag : Option Bytes) (found : Found) : Except Defect Entry := do
    match tag.bind Yaml.Tag.localName? with
    | some name =>
      let _ ← readEntryName start name
      throw (.misfit [] mark (.wrongKind found "unit"))
    | none => throw (.misfit [] mark (.wrongKind found "a YAML tag starting with '!'"))
  match d.follow key with
  | .scalar mark _ tag plain text =>
    match tag.bind Yaml.Tag.localName? with
    | some name =>
      let entry ← readEntryName start name
      if saysNothing plain text then return entry
      else throw (.misfit [] mark (.wrongText text "null"))
    | none => readEntryName mark text
  | .sequence mark _ tag _ => collection mark tag .sequence
  | .mapping mark _ tag _ => collection mark tag .mapping
  | _ => throw (brokenOff d)

/-- Reads the pairs of a theme. -/
def readPairs (d : Yaml.Document) (start : Mark) :
    List (Yaml.Node × Yaml.Node) → Except Defect (List (Entry × Option Color))
  | [] => .ok []
  | (key, value) :: pairs => do
    let entry ← readEntry d start key
    let color ← readStyle d [keyLabel key] value
    return (entry, color) :: (← readPairs d start pairs)

/-- Reads the changes that a document makes to the standard theme. -/
def readChanges (d : Yaml.Document) : Except Defect (List (Entry × Option Color)) :=
  match d.root with
  | none => .ok []
  | some (.scalar mark _ tag plain text) =>
    if plain && text == "" then .ok []
    else .error (.misfit [] mark (textMisfit tag plain text "a map"))
  | some (.sequence mark _ _ _) => .error (.misfit [] mark (.wrongKind .sequence "a map"))
  | some (.mapping mark _ _ pairs) => readPairs d mark pairs
  | some _ => .error (brokenOff d)

/-- The theme that a document gives. What follows the document is looked at last. -/
def ofDocument (d : Yaml.Document) : Except Defect Theme := do
  let changes ← readChanges d
  match d.fault, d.alone with
  | some fault, _ => throw (.yaml fault)
  | none, false => throw .severalDocuments
  | none, true => return standard.override changes

/-- The theme that a text gives. -/
def ofText (text : String) : Except Defect Theme := ofDocument (.ofText text)

/-- Why a theme file cannot be used. -/
inductive FileDefect where
  | unreadable (path : Path) (fault : Fault)
  | unfit (path : Path) (defect : Defect)
  deriving DecidableEq, Repr

/-- The defect in words, followed by what it was caused by. -/
def FileDefect.chain : FileDefect → List String
  | unreadable path fault => ["Failed to read theme file " ++ path.display, fault.message]
  | unfit path defect => ["Failed to parse theme file " ++ path.display, defect.message]

/-- The theme in a file. -/
def load (tree : FileTree) (path : Path) : Except FileDefect Theme :=
  match tree.readText path with
  | .error fault => .error (.unreadable path fault)
  | .ok text => (ofText text).mapError (.unfit path)

end ConsoleSweep.Theme
