import ConsoleSweep.CommandLine.Reading
import ConsoleSweep.Proofs.Sequence
import ConsoleSweep.Proofs.Text.Parts
import ConsoleSweep.Proofs.Text.Utf8

/-!
# Spelling a command line and reading it

Every option can be spelled in an argument of its own, with its value attached (`Item.spelled`), and
the directory at the end, where nothing is taken for an option. Values may then look like options,
and contain the signs that separate options from values. One such argument adds what it says to what
is given (`step_item`), several add it one after the other (`foldlM_items`), and `finish_eq` says
what is asked for in the end.
-/

namespace ConsoleSweep.CommandLine

/-- A switch of a run. -/
inductive Flag where
  | dryRun
  | yes
  | debug
  deriving DecidableEq, Repr

namespace Flag

/-- The argument that a switch is. -/
@[simp] def arg : Flag → Arg
  | dryRun => .dryRun
  | yes => .yes
  | debug => .debug

theorem arg_injective : Function.Injective arg := by
  intro switch switch' h
  cases switch <;> cases switch' <;> first | rfl | cases h

/-- How a switch is spelled: in short, where it has a short spelling, or in full. -/
def spelled (short : Bool) : Flag → String
  | dryRun => if short then "-d" else "--dry-run"
  | yes => if short then "-y" else "--yes"
  | debug => "--debug"

end Flag

/-- An option with its value. -/
inductive Item where
  | flag (switch : Flag) (short : Bool)
  | pattern (text : String)
  | exclude (names : List String)
  | theme (path : Path)
  deriving DecidableEq, Repr

namespace Item

/-- The argument that an option is. -/
@[simp] def arg : Item → Arg
  | flag switch _ => switch.arg
  | pattern _ => .pattern
  | exclude _ => .exclude
  | theme _ => .theme

/-- The values attached to an option. -/
@[simp] def values : Item → List Bytes
  | flag _ _ => []
  | pattern text => [Utf8.encode text]
  | exclude names => [[comma].intercalate (names.map Utf8.encode)]
  | theme path => [path.bytes]

/-- An option as it is spelled. -/
def spelled : Item → Bytes
  | flag switch short => Utf8.encode (switch.spelled short)
  | pattern text => Utf8.encode "--pattern=" ++ Utf8.encode text
  | exclude names => Utf8.encode "--exclude=" ++ [comma].intercalate (names.map Utf8.encode)
  | theme path => Utf8.encode "--theme=" ++ path.bytes

/-- An option that can be spelled: no name to be left out has a comma in it, and no path is empty.
-/
def Sayable : Item → Prop
  | exclude names => ∀ name ∈ names, ',' ∉ name.toList
  | theme path => path.bytes ≠ []
  | _ => True

/-- The names that an option leaves out. No name at all cannot be told from one that is empty. -/
@[simp] def names : Item → List String
  | exclude names => if names = [] then [""] else names
  | _ => []

/-- The pattern that an option gives. -/
@[simp] def pattern? : Item → Option String
  | pattern text => some text
  | _ => none

/-- The theme that an option gives. -/
@[simp] def theme? : Item → Option Path
  | theme path => some path
  | _ => none

end Item

/-- What is given after another option. -/
def Given.add (g : Given) (item : Item) : Given where
  args := item.arg.addTo g.args
  directory := g.directory
  pattern := item.pattern?.or g.pattern
  exclude := g.exclude ++ item.names
  theme := item.theme?.or g.theme

variable {g : Given} {item : Item} {items : List Item}

/-! ## Taking one option -/

theorem comma_notMem_encode {name : String} (h : ',' ∉ name.toList) : comma ∉ Utf8.encode name :=
  fun hmem => h (Utf8.mem_of_mem_encode (by decide) hmem)

/-- Names without a comma are read back from a value. -/
theorem names?_intercalate {names : List String} (h : ∀ name ∈ names, ',' ∉ name.toList) :
    Given.names? [[comma].intercalate (names.map Utf8.encode)] =
      some (if names = [] then [""] else names) := by
  rw [Given.names?, List.flatMap_singleton]
  split
  next hnil =>
    rw [hnil]
    rfl
  next hne =>
    have hparts : ∀ part ∈ names.map Utf8.encode, comma ∉ part := by
      intro part hpart
      obtain ⟨name, hname, rfl⟩ := List.mem_map.mp hpart
      exact comma_notMem_encode (h name hname)
    have hdecode : Utf8.decode? ∘ Utf8.encode = fun name => pure (id name) :=
      funext Utf8.decode?_encode
    rw [partsAt_intercalate (by simpa using hne) hparts, List.mapM_map, hdecode, List.mapM_pure,
      List.map_id]
    rfl

theorem mem_addTo_iff {arg arg' : Arg} {args : List Arg} :
    arg' ∈ arg.addTo args ↔ arg' ∈ args ∨ arg' = arg := by
  rw [Arg.addTo]
  split
  next harg => exact (or_iff_left_of_imp fun heq => heq ▸ harg).symm
  next => rw [List.mem_append, List.mem_singleton]

/-- An option that is not given yet, or may be given again, is taken with its value. -/
theorem take_item (hsayable : item.Sayable)
    (hnew : item.arg ∈ g.args → item.arg.takes = .several) :
    g.take item.arg item.values = (g.add item, none) := by
  have hvalues : ¬ (item.arg.takes ≠ .nothing ∧ item.values = []) := by
    rintro ⟨htakes, hnone⟩
    cases item with
    | flag switch short => cases switch <;> exact htakes rfl
    | _ => cases hnone
  have hagain : ¬ (item.arg ∈ g.args ∧ item.arg.takes ≠ .several) :=
    fun ⟨hmem, htakes⟩ => htakes (hnew hmem)
  rw [Given.take, if_neg hvalues, if_neg hagain]
  cases item with
  | flag switch short => cases switch <;> simp [Given.store, Given.add]
  | pattern text => simp [Given.store, Given.add, Utf8.decode?_encode]
  | exclude names => simp [Given.store, Given.add, names?_intercalate hsayable]
  | theme path =>
    have hpath : Given.path? path.bytes = some path := if_neg hsayable
    simp [Given.store, Given.add, hpath]

/-! ## Reading one option -/

/-- An option with a value attached to its name has the form of one. -/
theorem form_of_attached {name : Bytes} (h : equals ∉ name) (value : Bytes) :
    Form.of (dash :: dash :: (name ++ equals :: value)) = .long name (some value) := by
  have hmore : name ++ equals :: value ≠ [] := by simp
  rw [Form.of, if_neg (by simp), if_neg (by simp), if_neg hmore, cutAt_append_cons h]

theorem supply_eq {arg : Arg} {values : List Bytes} {given : Given}
    (h : g.take arg values = (given, none)) :
    Reading.supply ⟨g, none, false⟩ arg values = .ok ⟨given, none, false⟩ := by
  have hsettle : Reading.settle ⟨g, none, false⟩ = .ok ⟨g, none, false⟩ := rfl
  simp only [Reading.supply, hsettle, bind, Except.bind, h]

/-- An option is supplied with the value attached to it. -/
theorem step_attached {arg : Arg} (name : Bytes) (h : equals ∉ name)
    (hname : (Utf8.decode? name).bind Arg.ofLong? = some arg) (htakes : arg.takes ≠ .nothing)
    (value : Bytes) : Reading.step ⟨g, none, false⟩ (dash :: dash :: (name ++ equals :: value)) =
      Reading.supply ⟨g, none, false⟩ arg [value] := by
  have hlong : Reading.step ⟨g, none, false⟩ (dash :: dash :: (name ++ equals :: value)) =
      Reading.long ⟨g, none, false⟩ name (some value) := by
    simp only [Reading.step, form_of_attached h, Bool.false_eq_true, if_false]
  rw [hlong, Reading.long]
  -- `htakes` leaves the last case of the table: one for an argument with a value
  simp only [hname]

/-- A switch is supplied with nothing. -/
theorem step_flag (switch : Flag) (short : Bool) :
    Reading.step ⟨g, none, false⟩ (Utf8.encode (switch.spelled short)) =
      Reading.supply ⟨g, none, false⟩ switch.arg [] := by
  -- what follows a letter is read as more letters, and nothing follows
  have hletter : ∀ arg, (do (← Reading.supply ⟨g, none, false⟩ arg []).short []) =
      Reading.supply ⟨g, none, false⟩ arg [] := fun arg => bind_pure _
  cases short with
  | false => cases switch <;> rfl
  | true =>
    cases switch with
    | dryRun => exact hletter .dryRun
    | yes => exact hletter .yes
    | debug => rfl

/-- An option is read as it is spelled, and nothing waits for values after it. -/
theorem step_item (hsayable : item.Sayable)
    (hnew : item.arg ∈ g.args → item.arg.takes = .several) :
    Reading.step ⟨g, none, false⟩ item.spelled = .ok ⟨g.add item, none, false⟩ := by
  rw [← supply_eq (take_item hsayable hnew)]
  cases item with
  | flag switch short => exact step_flag switch short
  | pattern text => exact step_attached (Utf8.encode "pattern") (by decide) rfl (by decide) _
  | exclude names => exact step_attached (Utf8.encode "exclude") (by decide) rfl (by decide) _
  | theme path => exact step_attached (Utf8.encode "theme") (by decide) rfl (by decide) _

/-! ## Reading a command line -/

/-- No option stands twice, unless it may. -/
def Once (items : List Item) : Prop :=
  items.Pairwise fun item later => later.arg = item.arg → later.arg.takes = .several

/-- Options are read one after the other. -/
theorem foldlM_items (hsayable : ∀ item ∈ items, item.Sayable) (honce : Once items)
    (hnew : ∀ item ∈ items, item.arg ∈ g.args → item.arg.takes = .several) :
    (items.map Item.spelled).foldlM Reading.step ⟨g, none, false⟩ =
      .ok ⟨items.foldl Given.add g, none, false⟩ := by
  induction items generalizing g with
  | nil => rfl
  | cons item rest ih =>
    obtain ⟨hitem, hrest⟩ := List.forall_mem_cons.mp hsayable
    obtain ⟨hfirst, hnext⟩ := List.forall_mem_cons.mp hnew
    obtain ⟨hlater, honce⟩ := List.pairwise_cons.mp honce
    have hadded : ∀ later ∈ rest, later.arg ∈ (g.add item).args → later.arg.takes = .several := by
      intro later hmem harg
      rcases mem_addTo_iff.mp harg with harg | harg
      · exact hnext later hmem harg
      · exact hlater later hmem harg
    rw [List.map_cons, List.foldlM_cons, step_item hitem hfirst]
    exact ih hrest honce hadded

theorem mem_args_foldl_add {arg : Arg} : arg ∈ (items.foldl Given.add g).args ↔
    arg ∈ g.args ∨ arg ∈ items.map Item.arg := by
  induction items generalizing g with
  | nil => simp
  | cons item rest ih =>
    rw [List.foldl_cons, ih, List.map_cons, List.mem_cons, ← or_assoc]
    exact or_congr_left mem_addTo_iff

/-- What several options give: the last pattern, the last theme, and all the names. -/
theorem foldl_add (items : List Item) (g : Given) :
    (items.foldl Given.add g).pattern = (items.filterMap Item.pattern?).getLast?.or g.pattern ∧
      (items.foldl Given.add g).exclude = g.exclude ++ items.flatMap Item.names ∧
      (items.foldl Given.add g).theme = (items.filterMap Item.theme?).getLast?.or g.theme := by
  induction items generalizing g with
  | nil => simp
  | cons item rest ih =>
    rw [List.foldl_cons, getLast?_filterMap_cons_or, getLast?_filterMap_cons_or,
      List.flatMap_cons, ← List.append_assoc]
    exact ih (g.add item)

/-- What is given once the directory is. -/
def Given.place (g : Given) (directory : Path) : Given :=
  { g with args := Arg.directory.addTo g.args, directory := some directory }

theorem take_directory {directory : Path} (hnew : .directory ∉ g.args)
    (hdirectory : directory.bytes ≠ []) :
    g.take .directory [directory.bytes] = (g.place directory, none) := by
  have hpath : Given.path? directory.bytes = some directory := if_neg hdirectory
  simp [Given.take, Arg.takes, hnew, Given.store, hpath, Given.place]

/-- After the sign that ends the options, the directory is taken whatever it looks like. -/
theorem foldlM_directory {directory : Path} (hnew : .directory ∉ g.args) :
    [Utf8.encode "--", directory.bytes].foldlM Reading.step ⟨g, none, false⟩ =
      .ok ⟨g, some (.directory, [directory.bytes]), true⟩ := by
  have hends : Reading.step ⟨g, none, false⟩ (Utf8.encode "--") = .ok ⟨g, none, true⟩ := rfl
  have hplace : Reading.step ⟨g, none, true⟩ directory.bytes =
      .ok ⟨g, some (.directory, [directory.bytes]), true⟩ := by
    have hmissing : Reading.hasDirectory ⟨g, none, true⟩ = false := by
      simp [Reading.hasDirectory, hnew]
    rw [Reading.step, if_pos rfl, Reading.place, hmissing]
    rfl
  rw [List.foldlM_cons, hends]
  show Reading.step ⟨g, none, true⟩ directory.bytes >>= _ = _
  rw [hplace]
  rfl

/-- A pattern that is given counts, and else the one that the variable gives. -/
theorem exists_withVariable (setting : Option String)
    (hpattern : .pattern ∈ g.args ↔ g.pattern.isSome) :
    ∃ args, Reading.withVariable g (setting.map Utf8.encode) =
        .ok { g with args, pattern := g.pattern.or setting } ∧
      ∀ arg ≠ .pattern, arg ∈ args ↔ arg ∈ g.args := by
  cases setting with
  | none => exact ⟨g.args, by simp [Reading.withVariable], fun _ _ => Iff.rfl⟩
  | some text =>
    by_cases hgiven : .pattern ∈ g.args
    · obtain ⟨own, hown⟩ := Option.isSome_iff_exists.mp (hpattern.mp hgiven)
      refine ⟨g.args, ?_, fun _ _ => Iff.rfl⟩
      rw [Option.map_some, Reading.withVariable, if_pos hgiven, hown, Option.some_or, ← hown]
    · have hown : g.pattern = none := by simpa using mt hpattern.mpr hgiven
      have htake : g.take .pattern [Utf8.encode text] = (g.add (.pattern text), none) :=
        @take_item g (.pattern text) trivial fun h => absurd h hgiven
      refine ⟨Arg.pattern.addTo g.args, ?_, fun arg hother => ?_⟩
      · rw [Option.map_some, Reading.withVariable, if_neg hgiven, htake, hown]
        simp [Given.add, hown]
      · rw [mem_addTo_iff, or_iff_left hother]

/-- What is asked for when all is read but the variable, and the directory waits for nothing more.
-/
theorem finish_eq {directory : Path} (hdirectory : directory.bytes ≠ [])
    (hnew : .directory ∉ g.args) (hpattern : .pattern ∈ g.args ↔ g.pattern.isSome)
    (setting : Option String) :
    Reading.finish ⟨g, some (.directory, [directory.bytes]), true⟩ (setting.map Utf8.encode) =
      .ok {
        directory
        pattern := (g.pattern.or setting).getD Options.defaultPattern
        dryRun := .dryRun ∈ g.args
        exclude := g.exclude
        yes := .yes ∈ g.args
        theme := g.theme
        debug := .debug ∈ g.args } := by
  have hsettle : Reading.settle ⟨g, some (.directory, [directory.bytes]), true⟩ =
      .ok ⟨g.place directory, none, true⟩ := by
    simp only [Reading.settle, Reading.settled, take_directory hnew hdirectory]
  have hplaced : ∀ arg ≠ .directory, arg ∈ (g.place directory).args ↔ arg ∈ g.args := by
    intro arg hother
    rw [Given.place, mem_addTo_iff, or_iff_left hother]
  obtain ⟨args, hvariable, hsame⟩ := @exists_withVariable (g.place directory) setting
    ((hplaced _ Arg.noConfusion).trans hpattern)
  have hswitch : ∀ switch : Flag, switch.arg ∈ args ↔ switch.arg ∈ g.args := by
    intro switch
    rw [hsame _ (by cases switch <;> exact Arg.noConfusion),
      hplaced _ (by cases switch <;> exact Arg.noConfusion)]
  have hdryRun : .dryRun ∈ args ↔ .dryRun ∈ g.args := hswitch .dryRun
  have hyes : .yes ∈ args ↔ .yes ∈ g.args := hswitch .yes
  have hdebug : .debug ∈ args ↔ .debug ∈ g.args := hswitch .debug
  rw [Reading.finish, hsettle]
  show Reading.withVariable (g.place directory) _ >>= _ = _
  rw [hvariable]
  show Except.ok _ = _
  simp only [Given.place, hdryRun, hyes, hdebug]

end ConsoleSweep.CommandLine
