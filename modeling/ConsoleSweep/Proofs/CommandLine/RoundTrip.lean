import ConsoleSweep.Proofs.CommandLine.Spelled

/-!
# Command lines round-trip

Options that can be spelled, in any order, with the directory after them, are read as just what they
say (`read_items`). What is wanted of a run has a command line of that kind (`Choice.arguments`), so
reading it gives the wanted run back (`read_arguments`).

The proof has two halves that meet at `requested`. The first follows the reading over any options,
the second works out what the options of a choice say together.
-/

namespace ConsoleSweep.CommandLine

section Reading

/-! ## Reading options in any order -/

/-- What options, a directory and the variable ask for together. -/
def requested (items : List Item) (directory : Path) (setting : Option String) : Request where
  directory
  pattern := ((items.filterMap Item.pattern?).getLast?.or setting).getD Options.defaultPattern
  dryRun := .dryRun ∈ items.map Item.arg
  exclude := items.flatMap Item.names
  yes := .yes ∈ items.map Item.arg
  theme := (items.filterMap Item.theme?).getLast?
  debug := .debug ∈ items.map Item.arg

variable {items : List Item} {directory : Path}

theorem arg_ne_directory (item : Item) : item.arg ≠ .directory := by
  cases item with
  | flag switch short => cases switch <;> exact Arg.noConfusion
  | _ => exact Arg.noConfusion

theorem arg_eq_pattern_iff (item : Item) : item.arg = .pattern ↔ item.pattern?.isSome := by
  cases item with
  | flag switch short => cases switch <;> simp
  | _ => simp

/-- The pattern counts as given just when an option gives one. -/
theorem pattern_mem_iff (items : List Item) :
    .pattern ∈ items.map Item.arg ↔ (items.filterMap Item.pattern?).getLast?.isSome := by
  rw [List.getLast?_isSome, ne_eq, List.filterMap_eq_nil_iff, List.mem_map]
  simp only [arg_eq_pattern_iff, not_forall, exists_prop, Option.isSome_iff_ne_none, ne_eq]

/-- Options that can be spelled, each once unless it may be given again, are read as what they say,
whatever their order, with the directory after them whatever it looks like. -/
theorem read_items (hsayable : ∀ item ∈ items, item.Sayable) (honce : Once items)
    (hdirectory : directory.bytes ≠ []) (setting : Option String) :
    read (items.map Item.spelled ++ [Utf8.encode "--", directory.bytes])
        (setting.map Utf8.encode) = .ok (requested items directory setting) := by
  let g := items.foldl Given.add .nothing
  -- nothing is given before the first option
  have hsaid := foldl_add items .nothing
  have hpattern : g.pattern = (items.filterMap Item.pattern?).getLast? :=
    hsaid.1.trans Option.or_none
  have hexclude : g.exclude = items.flatMap Item.names := hsaid.2.1
  have htheme : g.theme = (items.filterMap Item.theme?).getLast? :=
    hsaid.2.2.trans Option.or_none
  have hargs : ∀ arg, arg ∈ g.args ↔ arg ∈ items.map Item.arg :=
    fun _ => mem_args_foldl_add.trans (or_iff_right List.not_mem_nil)
  have hnew : .directory ∉ g.args := by
    rw [hargs, List.mem_map]
    exact fun ⟨item, _, harg⟩ => arg_ne_directory item harg
  have hcounts : .pattern ∈ g.args ↔ g.pattern.isSome := by
    rw [hargs, pattern_mem_iff, hpattern]
  have hread : (items.map Item.spelled ++ [Utf8.encode "--", directory.bytes]).foldlM
      Reading.step .start = .ok ⟨g, some (.directory, [directory.bytes]), true⟩ := by
    rw [List.foldlM_append, Reading.start,
      foldlM_items hsayable honce fun _ _ h => absurd h List.not_mem_nil]
    exact foldlM_directory hnew
  calc read (items.map Item.spelled ++ [Utf8.encode "--", directory.bytes])
        (setting.map Utf8.encode)
      = Reading.finish ⟨g, some (.directory, [directory.bytes]), true⟩
          (setting.map Utf8.encode) := by rw [read, hread]; rfl
    _ = .ok (requested items directory setting) := by
      rw [finish_eq hdirectory hnew hcounts, requested]
      simp only [hargs, hpattern, hexclude, htheme]

end Reading

/-! ## Saying what is wanted -/

/-- Names to leave out, joined in one option or each in its own. -/
def exclusions (joined : Bool) (names : List String) : List Item :=
  if joined then [.exclude names] else names.map fun name => .exclude [name]

variable {joined : Bool} {names : List String}

theorem eq_exclude_of_mem {item : Item} (h : item ∈ exclusions joined names) :
    ∃ part, item = .exclude part ∧ part ⊆ names := by
  cases joined with
  | true => exact ⟨names, List.mem_singleton.mp h, List.Subset.refl _⟩
  | false =>
    obtain ⟨name, hname, rfl⟩ := List.mem_map.mp h
    exact ⟨[name], rfl, List.cons_subset.mpr ⟨hname, List.nil_subset _⟩⟩

/-- No name at all, joined, cannot be told from one that is empty. -/
theorem names_exclusions : (exclusions joined names).flatMap Item.names =
    if joined ∧ names = [] then [""] else names := by
  cases joined with
  | true => simp [exclusions]
  | false => simp [exclusions, List.flatMap_map]

/-- What is wanted of a run. -/
structure Choice where
  directory : Path
  /-- The pattern, unless it is left to the variable. -/
  pattern : Option String
  /-- The switches, in the order in which they are given. -/
  switches : List Flag
  exclude : List String
  theme : Option Path
  deriving DecidableEq, Repr

namespace Choice

/-- What can be said on a command line: no path is empty, no switch is given twice, and no name to
leave out has a comma in it. -/
structure Sayable (c : Choice) : Prop where
  directory : c.directory.bytes ≠ []
  switches : c.switches.Nodup
  exclude : ∀ name ∈ c.exclude, ',' ∉ name.toList
  theme : ∀ path ∈ c.theme, path.bytes ≠ []

/-- The options of a choice. -/
def items (c : Choice) (short : Flag → Bool) (joined : Bool) : List Item :=
  c.switches.map (fun switch => .flag switch (short switch)) ++ c.pattern.toList.map .pattern ++
    exclusions joined c.exclude ++ c.theme.toList.map .theme

/-- The command line of a choice. -/
def arguments (c : Choice) (short : Flag → Bool) (joined : Bool) : List Bytes :=
  (c.items short joined).map Item.spelled ++ [Utf8.encode "--", c.directory.bytes]

variable {c : Choice} {short : Flag → Bool}

/-- What the options of a choice are. -/
theorem eq_of_mem_items {item : Item} (h : item ∈ c.items short joined) :
    (∃ switch ∈ c.switches, item = .flag switch (short switch)) ∨
      (∃ text ∈ c.pattern, item = .pattern text) ∨
      (∃ names ⊆ c.exclude, item = .exclude names) ∨ ∃ path ∈ c.theme, item = .theme path := by
  simp only [items, List.mem_append, or_assoc] at h
  obtain h | h | h | h := h
  · obtain ⟨switch, hswitch, rfl⟩ := List.mem_map.mp h
    exact .inl ⟨switch, hswitch, rfl⟩
  · obtain ⟨text, htext, rfl⟩ := List.mem_map.mp h
    exact .inr (.inl ⟨text, Option.mem_toList.mp htext, rfl⟩)
  · obtain ⟨names, rfl, hnames⟩ := eq_exclude_of_mem h
    exact .inr (.inr (.inl ⟨names, hnames, rfl⟩))
  · obtain ⟨path, hpath, rfl⟩ := List.mem_map.mp h
    exact .inr (.inr (.inr ⟨path, Option.mem_toList.mp hpath, rfl⟩))

theorem sayable_items (hc : c.Sayable) : ∀ item ∈ c.items short joined, item.Sayable := by
  intro item hitem
  obtain ⟨switch, _, rfl⟩ | ⟨text, _, rfl⟩ | ⟨names, hnames, rfl⟩ | ⟨path, hpath, rfl⟩ :=
    eq_of_mem_items hitem
  · trivial
  · trivial
  · exact fun name hname => hc.exclude name (hnames hname)
  · exact hc.theme path hpath

theorem once_items (hc : c.Sayable) : Once (c.items short joined) := by
  have hswitches : Once (c.switches.map fun switch => .flag switch (short switch)) := by
    refine List.pairwise_map.mpr (hc.switches.imp fun hne heq => absurd ?_ hne)
    exact (Flag.arg_injective heq).symm
  have hpattern : Once (c.pattern.toList.map .pattern) := by
    cases c.pattern <;> simp [Once]
  have hexclude : Once (exclusions joined c.exclude) := by
    refine List.pairwise_of_forall_mem_list fun item _ later hlater _ => ?_
    obtain ⟨names, rfl, -⟩ := eq_exclude_of_mem hlater
    rfl
  have htheme : Once (c.theme.toList.map .theme) := by
    cases c.theme <;> simp [Once]
  simp only [items, Once, List.pairwise_append]
  refine ⟨⟨⟨hswitches, hpattern, ?_⟩, hexclude, ?_⟩, htheme, ?_⟩
  · intro item hitem later hlater heq
    obtain ⟨switch, _, rfl⟩ := List.mem_map.mp hitem
    obtain ⟨text, _, rfl⟩ := List.mem_map.mp hlater
    cases switch <;> cases heq
  · intro item _ later hlater _
    obtain ⟨names, rfl, -⟩ := eq_exclude_of_mem hlater
    rfl
  · intro item hitem later hlater heq
    obtain ⟨path, _, rfl⟩ := List.mem_map.mp hlater
    simp only [List.mem_append, or_assoc] at hitem
    obtain hitem | hitem | hitem := hitem
    · obtain ⟨switch, _, rfl⟩ := List.mem_map.mp hitem
      cases switch <;> cases heq
    · obtain ⟨text, _, rfl⟩ := List.mem_map.mp hitem
      cases heq
    · obtain ⟨names, rfl, -⟩ := eq_exclude_of_mem hitem
      cases heq

/-- What no exclusion gives is given by the other options. -/
theorem filterMap_items {α : Type} {f : Item → Option α} (h : ∀ names, f (.exclude names) = none) :
    (c.items short joined).filterMap f =
      c.switches.filterMap (fun switch => f (.flag switch (short switch))) ++
        c.pattern.toList.filterMap (fun text => f (.pattern text)) ++
        c.theme.toList.filterMap fun path => f (.theme path) := by
  have hexclude : (exclusions joined c.exclude).filterMap f = [] := by
    rw [List.filterMap_eq_nil_iff]
    intro item hitem
    obtain ⟨names, rfl, -⟩ := eq_exclude_of_mem hitem
    exact h names
  simp [items, List.filterMap_append, List.filterMap_map, hexclude]

theorem flatMap_names_items : (c.items short joined).flatMap Item.names =
    if joined ∧ c.exclude = [] then [""] else c.exclude := by
  have hnone : ∀ {α : Type} (xs : List α), xs.flatMap (fun _ => ([] : List String)) = [] :=
    fun _ => List.flatMap_eq_nil_iff.mpr fun _ _ => rfl
  simp [items, List.flatMap_append, List.flatMap_map, names_exclusions, hnone]

theorem switch_mem_items_iff (switch : Flag) :
    switch.arg ∈ (c.items short joined).map Item.arg ↔ switch ∈ c.switches := by
  constructor
  · intro h
    obtain ⟨item, hitem, harg⟩ := List.mem_map.mp h
    obtain ⟨switch', hswitch, rfl⟩ | ⟨text, _, rfl⟩ | ⟨names, _, rfl⟩ | ⟨path, _, rfl⟩ :=
      eq_of_mem_items hitem
    · rwa [← Flag.arg_injective harg]
    all_goals cases switch <;> cases harg
  · intro h
    refine List.mem_map.mpr ⟨.flag switch (short switch), ?_, rfl⟩
    simp [items, h]

/-- What the options of a choice ask for is what is wanted. -/
theorem requested_items (setting : Option String) :
    requested (c.items short joined) c.directory setting = {
      directory := c.directory
      pattern := (c.pattern.or setting).getD Options.defaultPattern
      dryRun := .dryRun ∈ c.switches
      exclude := if joined ∧ c.exclude = [] then [""] else c.exclude
      yes := .yes ∈ c.switches
      theme := c.theme
      debug := .debug ∈ c.switches } := by
  have hpattern : ((c.items short joined).filterMap Item.pattern?).getLast? = c.pattern := by
    rw [filterMap_items fun _ => rfl]
    cases c.pattern <;> simp
  have htheme : ((c.items short joined).filterMap Item.theme?).getLast? = c.theme := by
    rw [filterMap_items fun _ => rfl]
    cases c.theme <;> simp
  have hdryRun : .dryRun ∈ (c.items short joined).map Item.arg ↔ .dryRun ∈ c.switches :=
    switch_mem_items_iff .dryRun
  have hyes : .yes ∈ (c.items short joined).map Item.arg ↔ .yes ∈ c.switches :=
    switch_mem_items_iff .yes
  have hdebug : .debug ∈ (c.items short joined).map Item.arg ↔ .debug ∈ c.switches :=
    switch_mem_items_iff .debug
  simp only [requested, hpattern, htheme, flatMap_names_items, hdryRun, hyes, hdebug]

/-- Command lines round-trip: whatever is wanted of a run, its command line asks for just that.
Where no pattern is wanted, the one of the variable counts, or else the default one. No names at
all, when they are joined, are taken for the empty name. -/
theorem read_arguments (hc : c.Sayable) (short : Flag → Bool) (joined : Bool)
    (setting : Option String) :
    ∃ request, read (c.arguments short joined) (setting.map Utf8.encode) = .ok request ∧
      request.options = {
        root := c.directory
        pattern := (c.pattern.or setting).getD Options.defaultPattern
        dryRun := .dryRun ∈ c.switches
        exclude := if joined ∧ c.exclude = [] then [""] else c.exclude } ∧
      request.yes = decide (.yes ∈ c.switches) ∧
      request.debug = decide (.debug ∈ c.switches) ∧ request.theme = c.theme := by
  refine ⟨_, read_items (sayable_items hc) (once_items hc) hc.directory setting, ?_⟩
  rw [requested_items]
  exact ⟨rfl, rfl, rfl, rfl⟩

/-- A directory, a pattern and names that look like options, a theme that is no text, and a variable
that is set: the command line is `-y --dry-run --pattern=-x=--dry-run --exclude=-e --exclude=a=b
--theme=…=… -- --yes`. -/
theorem read_arguments_lookalikes :
    Sayable ⟨.ofString "--yes", some "-x=--dry-run", [.yes, .dryRun], ["-e", "a=b"],
        some ⟨[0xFF, equals, dash]⟩⟩ ∧
      ∃ request, read
          (arguments ⟨.ofString "--yes", some "-x=--dry-run", [.yes, .dryRun], ["-e", "a=b"],
            some ⟨[0xFF, equals, dash]⟩⟩ (· = .yes) false)
          (some (Utf8.encode "**/*.ts")) = .ok request ∧
        request.options = ⟨.ofString "--yes", "-x=--dry-run", true, ["-e", "a=b"]⟩ ∧
        request.yes = true ∧ request.debug = false ∧
        request.theme = some ⟨[0xFF, equals, dash]⟩ := by
  have hc : Sayable ⟨.ofString "--yes", some "-x=--dry-run", [.yes, .dryRun], ["-e", "a=b"],
      some ⟨[0xFF, equals, dash]⟩⟩ := ⟨by decide, by decide, by decide, by decide⟩
  exact ⟨hc, read_arguments hc (· = .yes) false (some "**/*.ts")⟩

/-- No names at all, joined, are read as one: the empty name. -/
theorem read_no_names_joined :
    Sayable ⟨.ofString "d", some "a", [], [], none⟩ ∧
      arguments ⟨.ofString "d", some "a", [], [], none⟩ (fun _ => false) true =
        ["--pattern=a", "--exclude=", "--", "d"].map Utf8.encode ∧
      ∃ request, read (["--pattern=a", "--exclude=", "--", "d"].map Utf8.encode) none =
        .ok request ∧ request.options.exclude ≠ [] :=
  ⟨⟨by decide, by decide, by decide, by decide⟩, rfl,
    ⟨.ofString "d", "a", false, [""], false, none, false⟩, rfl, List.cons_ne_nil _ _⟩

end Choice

end ConsoleSweep.CommandLine
