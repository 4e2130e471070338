import Mathlib.Data.List.Forall2
import Mathlib.Data.List.Nodup
import ConsoleSweep.FileTree.Edit
import ConsoleSweep.Proofs.FileTree.Content
import ConsoleSweep.Proofs.Sequence
import ConsoleSweep.Theme.File

/-!
# Loading a theme

A theme file that is a mapping from texts to styles is taken for a theme just if each of the texts
names an entry and each colour that a style names is one. Then the entries it names have the styles
it gives them, and the other entries their standard colours (`load_of_styles`). So every colour of a
theme that has been loaded is one that the terminal has, and none is shown white for want of that.

What a document says is read off its nodes by `Document.styles?`, which knows nothing of themes.

## Shape of the proof

* Each reader of a theme succeeds on such a node just if it fits, with what it says
  (`readColor_eq_ok_iff`, `readStyle_eq_ok_iff`, `readEntry_eq_ok_iff`, `readPairs_eq_ok_iff`).
* Where no entry is named twice, a change to the standard theme holds (`override_of_mem`).
* The names that a theme may give its colours are those that the terminal's colours have
  (`exists_terminal_of_mem_names`).
-/

namespace ConsoleSweep

namespace Yaml.Document

/-! ## What a document says -/

variable (d : Document)

/-- The text that a node is, unless a tag of the document's own makes it something else. -/
def text? (node : Node) : Option String :=
  match d.follow node with
  | .scalar _ _ tag _ text => if tag.bind Tag.localName? = none then some text else none
  | _ => none

/-- What a node is that is nothing or a text. A text in quotes is one whatever it says. -/
def textOrNull? (node : Node) : Option (Option String) :=
  match d.follow node with
  | .scalar _ _ _ false text => some (some text)
  | .scalar _ _ none true text =>
    some (if text = "" ∨ text ∈ Value.nullWords then none else some text)
  | .scalar _ _ (some tag) true text =>
    if tag ≠ Tag.shared "null" then some (some text)
    else if text ∈ Value.nullWords then some none
    else none
  | _ => none

/-- The colour that a style names, if it names one: a style is left out, has no keys, or has the
single key `fg` with a text or nothing. -/
def style? (node : Node) : Option (Option String) :=
  match d.follow node with
  | .scalar _ _ _ true "" => some none
  | .mapping _ _ _ [] => some none
  | .mapping _ _ _ [(key, value)] => if d.text? key = some "fg" then d.textOrNull? value else none
  | _ => none

/-- Texts with their styles. -/
def pairs? : List (Node × Node) → Option (List (String × Option String))
  | [] => some []
  | (key, value) :: pairs => do
    return (← d.text? key, ← d.style? value) :: (← pairs? pairs)

/-- The texts and styles of a document that is a mapping from the ones to the others, with nothing
wrong in it and nothing after it. -/
def styles? : Option (List (String × Option String)) :=
  match d.root, d.fault, d.alone with
  | some (.mapping _ _ _ pairs), none, true => d.pairs? pairs
  | _, _, _ => none

end Yaml.Document

/-! ## Names of entries and colours -/

namespace Entry

theorem mem_all (entry : Entry) : entry ∈ all := by cases entry <;> decide

/-- No two entries have one name. -/
theorem name_injective : Function.Injective name := by
  have hall : ∀ e ∈ all, ∀ e' ∈ all, e.name = e'.name → e = e' := by decide
  exact fun e e' h => hall e (mem_all e) e' (mem_all e') h

theorem ofName?_eq_some_iff {given : String} {entry : Entry} :
    ofName? given = some entry ↔ entry.name = given := by
  constructor
  · intro h
    simpa using List.find?_some h
  · rintro rfl
    have hsome : (ofName? entry.name).isSome :=
      List.find?_isSome.mpr ⟨entry, mem_all entry, by simp⟩
    obtain ⟨found, hfound⟩ := Option.isSome_iff_exists.mp hsome
    have hname : found.name = entry.name := by simpa using List.find?_some hfound
    rw [hfound, name_injective hname]

end Entry

namespace Color

theorem parse?_eq_some_iff {text : String} {color : Color} :
    parse? text = some color ↔ lowerCase text ∈ names ∧ color = ⟨lowerCase text⟩ := by
  unfold parse?
  dsimp only
  split
  next h => simp [h, eq_comm]
  next h => simp [h]

/-- Each name that a theme may give is that of a colour of the terminal, which is the one shown. -/
theorem exists_terminal_of_mem_names : ∀ name ∈ names,
    ∃ c : TerminalColor, name = c.name ∧ (⟨name⟩ : Color).terminal = c := by
  have hall : ∀ name ∈ names, ∃ c ∈ TerminalColor.all,
      name = c.name ∧ (⟨name⟩ : Color).terminal = c := by decide +kernel
  intro name hname
  obtain ⟨c, -, hc⟩ := hall name hname
  exact ⟨c, hc⟩

end Color

namespace Theme

open Yaml (Document Mark)

theorem mem_names_of_standard {entry : Entry} {color : Color} (h : standard entry = some color) :
    color.name ∈ Color.names := by
  cases entry <;> cases h <;> decide

/-- Whether the colour that a style names, if it names one, is a colour. -/
def Fits (style : Option String) : Prop := ∀ name ∈ style, lowerCase name ∈ Color.names

/-- The colour of a style. -/
def colorOf (style : Option String) : Option Color := style.map fun name => ⟨lowerCase name⟩

/-! ## Reading a style -/

section Reading

variable {d : Document} {keys : List String} {start : Mark} {key value node : Yaml.Node}
  {name : String} {style : Option String} {color : Option Color} {entry : Entry}

theorem exists_scalar_of_text? (h : d.text? node = some name) :
    ∃ mark anchor tag plain, d.follow node = .scalar mark anchor tag plain name ∧
      tag.bind Yaml.Tag.localName? = none := by
  unfold Document.text? at h
  split at h
  next mark anchor tag plain text hnode =>
    split at h
    next htag =>
      cases h
      exact ⟨mark, anchor, tag, plain, hnode, htag⟩
    next => cases h
  next => cases h

theorem readStyleKey_of_text? (h : d.text? key = some name) :
    readStyleKey d keys key = .ok name := by
  obtain ⟨mark, anchor, tag, plain, hkey, -⟩ := exists_scalar_of_text? h
  rw [readStyleKey, hkey]

/-- The name of a colour is read where a text stands, and where nothing does there is none. -/
theorem exists_scalar_of_textOrNull? (keys : List String) (start : Mark)
    (h : d.textOrNull? value = some style) :
    ∃ mark anchor tag plain text, d.follow value = .scalar mark anchor tag plain text ∧
      readColorName keys start tag plain text = .ok style := by
  unfold Document.textOrNull? at h
  split at h
  next mark anchor tag text hvalue =>
    cases h
    refine ⟨mark, anchor, tag, false, text, hvalue, ?_⟩
    cases tag <;> rfl
  next mark anchor text hvalue =>
    cases h
    refine ⟨mark, anchor, none, true, text, hvalue, ?_⟩
    simp [readColorName, saysNothing]
  next mark anchor tag text hvalue =>
    refine ⟨mark, anchor, some tag, true, text, hvalue, ?_⟩
    split at h
    next htag =>
      cases h
      simp [readColorName, htag]
    next htag =>
      rw [not_not] at htag
      split at h
      next hword =>
        cases h
        simp [readColorName, htag, hword]
      next => cases h
  next => cases h

theorem fits_some_iff : Fits (some name) ↔ lowerCase name ∈ Color.names := by simp [Fits]

/-- The colour of a style is read just if it is one. -/
theorem readColor_eq_ok_iff (h : d.textOrNull? value = some style) :
    readColor d keys start key value = .ok color ↔ Fits style ∧ color = colorOf style := by
  obtain ⟨mark, anchor, tag, plain, text, hvalue, hname⟩ :=
    exists_scalar_of_textOrNull? keys start h
  have hread : readColor d keys start key value =
      style.elim (.ok none) fun name =>
        (Color.parse? name).elim (.error (.misfit keys start .unknownColor)) (.ok ∘ some) := by
    unfold readColor
    simp only [hvalue, hname]
    cases style with
    | none => rfl
    | some name =>
      rw [Option.elim_some]
      cases hparse : Color.parse? name <;> simp only [bind, Except.bind, hparse] <;> rfl
  rw [hread]
  cases style with
  | none => simp [Fits, colorOf, eq_comm]
  | some name =>
    rw [fits_some_iff, colorOf, Option.map_some, Option.elim_some]
    cases hparse : Color.parse? name with
    | none =>
      have hnone : lowerCase name ∉ Color.names := fun hmem => by
        rw [Color.parse?_eq_some_iff.mpr ⟨hmem, rfl⟩] at hparse
        cases hparse
      simp [hnone]
    | some found =>
      obtain ⟨hmem, rfl⟩ := Color.parse?_eq_some_iff.mp hparse
      simp [hmem, eq_comm]

/-- A style is read just if its colour is one. -/
theorem readStyle_eq_ok_iff (h : d.style? node = some style) :
    readStyle d keys node = .ok color ↔ Fits style ∧ color = colorOf style := by
  unfold Document.style? at h
  unfold readStyle
  split at h
  next mark anchor tag hnode =>
    cases h
    simp [hnode, Fits, colorOf, eq_comm]
  next mark anchor tag hnode =>
    cases h
    simp [hnode, readStylePairs, Fits, colorOf, eq_comm]
  next mark anchor tag key value hnode =>
    split at h
    next hkey =>
      have hpairs : readStylePairs d keys mark none [(key, value)] =
          readColor d keys mark key value := by
        simp only [readStylePairs, readStyleKey_of_text? hkey]
        cases readColor d keys mark key value <;> rfl
      simp only [hnode, hpairs]
      exact readColor_eq_ok_iff h
    next => cases h
  next => cases h

/-- A text is read as the entry of its name. -/
theorem readEntry_eq_ok_iff (h : d.text? key = some name) :
    readEntry d start key = .ok entry ↔ entry.name = name := by
  obtain ⟨mark, anchor, tag, plain, hkey, htag⟩ := exists_scalar_of_text? h
  have hread : readEntry d start key = readEntryName mark name := by
    unfold readEntry
    simp only [hkey, htag]
  rw [hread, ← Entry.ofName?_eq_some_iff, readEntryName]
  cases Entry.ofName? name <;> simp

/-- What a text and its style change. -/
def Changes (given : String × Option String) (change : Entry × Option Color) : Prop :=
  change.1.name = given.1 ∧ Fits given.2 ∧ change.2 = colorOf given.2

/-- Pairs are read just if each of them changes something. -/
theorem readPairs_eq_ok_iff {pairs : List (Yaml.Node × Yaml.Node)}
    {styles : List (String × Option String)} {changes : List (Entry × Option Color)}
    (h : d.pairs? pairs = some styles) :
    readPairs d start pairs = .ok changes ↔ List.Forall₂ Changes styles changes := by
  induction pairs generalizing styles changes with
  | nil =>
    cases h
    rw [readPairs, List.forall₂_nil_left_iff, Except.ok.injEq, eq_comm]
  | cons pair pairs ih =>
    obtain ⟨key, value⟩ := pair
    simp only [Document.pairs?, Option.bind_eq_bind, Option.bind_eq_some_iff, Option.pure_def,
      Option.some.injEq] at h
    obtain ⟨name, hname, style, hstyle, rest, hrest, rfl⟩ := h
    rw [List.forall₂_cons_left_iff]
    constructor
    · intro hread
      unfold readPairs at hread
      obtain ⟨entry, hentry, hread⟩ := exists_ok_of_bind hread
      obtain ⟨color, hcolor, hread⟩ := exists_ok_of_bind hread
      obtain ⟨others, hothers, hread⟩ := exists_ok_of_bind hread
      cases hread
      exact ⟨_, _, ⟨(readEntry_eq_ok_iff hname).mp hentry, (readStyle_eq_ok_iff hstyle).mp hcolor⟩,
        (ih hrest).mp hothers, rfl⟩
    · rintro ⟨change, others, ⟨hentry, hcolor⟩, hothers, rfl⟩
      rw [readPairs, (readEntry_eq_ok_iff hname).mpr hentry, (ih hrest).mpr hothers]
      simp only [(readStyle_eq_ok_iff hstyle).mpr hcolor]
      rfl

end Reading

/-! ## Changing the standard theme -/

section Override

variable {theme : Theme} {changes : List (Entry × Option Color)} {entry : Entry}
  {color : Option Color}

/-- An entry is changed by one of the changes to it, or stays as it is if there are none. -/
theorem override_cases (theme : Theme) (changes : List (Entry × Option Color)) (entry : Entry) :
    (entry, theme.override changes entry) ∈ changes ∨
      (∀ color, (entry, color) ∉ changes) ∧ theme.override changes entry = theme entry := by
  rw [override]
  split
  next other color hfound =>
    have hentry : other = entry := by simpa using List.find?_some hfound
    exact .inl (hentry ▸ List.mem_reverse.mp (List.mem_of_find?_eq_some hfound))
  next hnone =>
    refine .inr ⟨fun color hmem => ?_, rfl⟩
    exact List.find?_eq_none.mp hnone _ (List.mem_reverse.mpr hmem) (beq_self_eq_true entry)

/-- A change holds if there is no other change to its entry. -/
theorem override_of_mem (hdistinct : (changes.map Prod.fst).Nodup) (h : (entry, color) ∈ changes) :
    theme.override changes entry = color := by
  rcases override_cases theme changes entry with hmem | ⟨hnone, -⟩
  · exact congrArg Prod.snd (List.inj_on_of_nodup_map hdistinct hmem h rfl)
  · exact absurd h (hnone color)

end Override

/-! ## Reading a theme -/

variable {d : Document} {styles : List (String × Option String)}

/-- All texts and styles change something just if each text names an entry and each style fits. -/
theorem exists_changes_iff : (∃ changes, List.Forall₂ Changes styles changes) ↔
    ∀ style ∈ styles, (∃ entry : Entry, entry.name = style.1) ∧ Fits style.2 := by
  induction styles with
  | nil => exact iff_of_true ⟨[], .nil⟩ nofun
  | cons style styles ih =>
    rw [List.forall_mem_cons, ← ih]
    constructor
    · rintro ⟨_, hall⟩
      obtain ⟨_, _, ⟨hname, hfits, -⟩, hothers, -⟩ := List.forall₂_cons_left_iff.mp hall
      exact ⟨⟨⟨_, hname⟩, hfits⟩, _, hothers⟩
    · rintro ⟨⟨⟨entry, hname⟩, hfits⟩, others, hothers⟩
      exact ⟨(entry, colorOf style.2) :: others, .cons ⟨hname, hfits, rfl⟩ hothers⟩

/-- A document of texts and styles is a theme just if they change something, and is the standard
theme with these changes. -/
theorem ofDocument_eq_ok_iff (h : d.styles? = some styles) {theme : Theme} :
    ofDocument d = .ok theme ↔
      ∃ changes, List.Forall₂ Changes styles changes ∧ theme = standard.override changes := by
  unfold Document.styles? at h
  split at h
  next mark anchor tag pairs hroot hfault halone =>
    have hchanges : readChanges d = readPairs d mark pairs := by rw [readChanges, hroot]
    constructor
    · intro hread
      obtain ⟨changes, hpairs, hread⟩ := exists_ok_of_bind hread
      rw [hfault, halone] at hread
      cases hread
      exact ⟨changes, (readPairs_eq_ok_iff h).mp (hchanges ▸ hpairs), rfl⟩
    · rintro ⟨changes, hpairs, rfl⟩
      rw [ofDocument, hchanges, (readPairs_eq_ok_iff h).mpr hpairs, hfault, halone]
      rfl
  next => cases h

section Changed

variable {changes : List (Entry × Option Color)} (h : List.Forall₂ Changes styles changes)

include h

/-- The texts are the names of the entries that are changed. -/
theorem map_name_of_changes : changes.map (fun change => change.1.name) = styles.map Prod.fst := by
  induction h with
  | nil => rfl
  | cons hfirst _ ih => rw [List.map_cons, List.map_cons, ih, hfirst.1]

theorem mem_changes_of_mem {entry : Entry} {style : Option String}
    (hmem : (entry.name, style) ∈ styles) : (entry, colorOf style) ∈ changes := by
  induction h with
  | nil => cases hmem
  | @cons given change _ _ hfirst _ ih =>
    rcases List.mem_cons.mp hmem with rfl | hmem
    · obtain ⟨hname, -, hcolor⟩ := hfirst
      rw [← hcolor, ← Entry.name_injective hname]
      exact List.mem_cons_self
    · exact List.mem_cons_of_mem _ (ih hmem)

/-- Each colour that is changed to is one that a theme may give. -/
theorem mem_names_of_changes {entry : Entry} {color : Color}
    (hmem : (entry, some color) ∈ changes) : color.name ∈ Color.names := by
  induction h with
  | nil => cases hmem
  | @cons given change _ _ hfirst _ ih =>
    rcases List.mem_cons.mp hmem with rfl | hmem
    · obtain ⟨-, hfits, hcolor⟩ := hfirst
      obtain ⟨name, hname, rfl⟩ := Option.map_eq_some_iff.mp hcolor.symm
      exact hfits name hname
    · exact ih hmem

end Changed

/-- A theme whose colours are all names that a theme may give shows each as the terminal's colour of
that name. -/
theorem exists_terminal_of_override {changes : List (Entry × Option Color)}
    (h : List.Forall₂ Changes styles changes) {entry : Entry} {color : Color}
    (hcolor : standard.override changes entry = some color) :
    ∃ c : TerminalColor, color = ⟨c.name⟩ ∧ color.terminal = c := by
  have hname : color.name ∈ Color.names := by
    rcases override_cases standard changes entry with hmem | ⟨-, hsame⟩
    · rw [hcolor] at hmem
      exact mem_names_of_changes h hmem
    · exact mem_names_of_standard (hsame.symm.trans hcolor)
  obtain ⟨c, hc, hterminal⟩ := Color.exists_terminal_of_mem_names _ hname
  exact ⟨c, congrArg Color.mk hc, hterminal⟩

/-- **Loading a theme overrides the standard one**, and fails unless all of the file makes sense. Of
a file that is a mapping from distinct texts to styles, a theme can be loaded just if each text is
the name of an entry and each colour that is named is one, in any letter case. Then the entries
named have the colours given, or none, and the others have their standard colours; and each colour
of the theme is that of the terminal with its name. -/
theorem load_of_styles {tree : FileTree} {path : Path} {text : String}
    (hread : tree.read path = .ok (Utf8.encode text))
    (hstyles : (Document.ofText text).styles? = some styles)
    (hdistinct : (styles.map Prod.fst).Nodup) :
    ((∃ theme, load tree path = .ok theme) ↔
      ∀ style ∈ styles, (∃ entry : Entry, entry.name = style.1) ∧ Fits style.2) ∧
    ((∀ theme, load tree path ≠ .ok theme) →
      ∃ defect, load tree path = .error (.unfit path defect)) ∧
    ∀ theme, load tree path = .ok theme →
      (∀ entry style, (Entry.name entry, style) ∈ styles → theme entry = colorOf style) ∧
      (∀ entry, Entry.name entry ∉ styles.map Prod.fst → theme entry = standard entry) ∧
      ∀ entry color, theme entry = some color →
        ∃ c : TerminalColor, color = ⟨c.name⟩ ∧ color.terminal = c := by
  have hload : load tree path = (ofText text).mapError (.unfit path) := by
    have htext : tree.readText path = .ok text := by
      rw [FileTree.readText, hread]
      simp only [bind, Except.bind, Utf8.decode?_encode]
    rw [load, htext]
  have hloaded : ∀ {theme}, load tree path = .ok theme ↔
      ∃ changes, List.Forall₂ Changes styles changes ∧ theme = standard.override changes := by
    intro theme
    rw [hload, ← ofDocument_eq_ok_iff hstyles, ofText]
    cases ofDocument (.ofText text) <;> simp [Except.mapError]
  refine ⟨?_, fun hnone => ?_, fun theme htheme => ?_⟩
  · rw [← exists_changes_iff]
    simp only [hloaded]
    constructor
    · rintro ⟨-, changes, hchanges, -⟩
      exact ⟨changes, hchanges⟩
    · rintro ⟨changes, hchanges⟩
      exact ⟨_, changes, hchanges, rfl⟩
  · rw [hload] at hnone ⊢
    cases hof : ofText text with
    | ok theme =>
      rw [hof] at hnone
      exact absurd rfl (hnone theme)
    | error defect => exact ⟨defect, rfl⟩
  · obtain ⟨changes, hchanges, rfl⟩ := hloaded.mp htheme
    have hnames := map_name_of_changes hchanges
    have hentries : (changes.map Prod.fst).Nodup := by
      rw [← hnames] at hdistinct
      exact List.Nodup.of_map Entry.name (by rwa [List.map_map])
    refine ⟨fun entry style hmem => override_of_mem hentries (mem_changes_of_mem hchanges hmem),
      fun entry hunnamed => ?_, fun entry color => exists_terminal_of_override hchanges⟩
    rcases override_cases standard changes entry with hmem | ⟨-, hsame⟩
    · refine absurd ?_ hunnamed
      rw [← hnames]
      exact List.mem_map.mpr ⟨_, hmem, rfl⟩
    · exact hsame

/-- A theme file with a colour in mixed case, one with the Kelvin sign for its `k`, a style without
keys and one without a colour. -/
def styledText : String :=
  "prompt:\n  fg: BrightCyan\nwarn: \x7bfg: 'BLAC\u212A'\x7d\nerror: \x7b\x7d\n\"info\":\n  fg: ~\n"

/-- Both colours are found, the other two entries lose theirs, and the rest is as it was. -/
theorem load_of_styles_mixed :
    let tree := FileTree.empty.attemptAll [.file (.ofString "t.yaml") (Utf8.encode styledText)]
    ∃ theme, load tree (.ofString "t.yaml") = .ok theme ∧ theme .prompt = some ⟨"brightcyan"⟩ ∧
      theme .warn = some ⟨"black"⟩ ∧ theme .error = none ∧ theme .info = none ∧
      theme .success = some ⟨"green"⟩ := by
  intro tree
  have hread : tree.read (.ofString "t.yaml") = .ok (Utf8.encode styledText) := by decide +kernel
  have hstyles : (Document.ofText styledText).styles? = some [("prompt", some "BrightCyan"),
      ("warn", some "BLAC\u212A"), ("error", none), ("info", none)] := by decide +kernel
  obtain ⟨hloads, -, hgives⟩ := load_of_styles hread hstyles (by decide)
  have hfits : ∀ style ∈ [("prompt", some "BrightCyan"), ("warn", some "BLAC\u212A"),
      ("error", none), ("info", none)],
      (∃ entry : Entry, entry.name = style.1) ∧ Fits style.2 := by
    simp only [List.forall_mem_cons, List.not_mem_nil, false_imp_iff, implies_true, and_true]
    exact ⟨⟨⟨.prompt, rfl⟩, fits_some_iff.mpr (by decide +kernel)⟩,
      ⟨⟨.warn, rfl⟩, fits_some_iff.mpr (by decide +kernel)⟩, ⟨⟨.error, rfl⟩, nofun⟩,
      ⟨.info, rfl⟩, nofun⟩
  obtain ⟨theme, htheme⟩ := hloads.mpr hfits
  obtain ⟨hgiven, hkept, -⟩ := hgives theme htheme
  refine ⟨theme, htheme, ?_, ?_, hgiven .error none (by decide), hgiven .info none (by decide),
    hkept .success (by decide)⟩
  · rw [hgiven .prompt (some "BrightCyan") (by decide)]
    decide +kernel
  · rw [hgiven .warn (some "BLAC\u212A") (by decide)]
    decide +kernel

end Theme

end ConsoleSweep
