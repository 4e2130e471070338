import ConsoleSweep.FileTree.Edit
import ConsoleSweep.Proofs.Collection.Candidate
import ConsoleSweep.Proofs.Collection.Members
import ConsoleSweep.Proofs.FileTree.Way

/-!
# How the root is spelled

A directory `d` may as well be called `./d`, `d/`, `d//` or `d/.`, and a run is to collect the same
files. The root comes into a collection in three ways: it is looked up, it goes in front of the
links that are looked up, and the selection takes it off what it is asked about. The first two only
depend on the `way` of the root, and the selection takes off every spelling
(`candidate_ofNames`). So all that is left is the length of the path to a link, which a longer
spelling may bring to where it is not looked up any more (`overlong`), and the name of standard
input, which no longer stands for that with `./` in front.
-/

namespace ConsoleSweep

open Location (Named)

/-- The other spellings of a directory. -/
inductive Path.Respelled (d : Path) : Path → Prop where
  /-- The spelling `./d`, for a relative `d`. -/
  | here (hrelative : d.isAbsolute = false) : d.Respelled ⟨dot :: slash :: d.bytes⟩
  /-- The spellings `d/`, `d//` and `d/.`. -/
  | onward {tail : Bytes} (htail : tail ∈ [[], [slash], [dot]]) :
    d.Respelled ⟨d.bytes ++ slash :: tail⟩

namespace Path

variable {d d' root : Path} {tail before : Bytes} {rel : List Name}

/-! ## What the spellings have in common -/

theorem filter_partsAt_tail (htail : tail ∈ [[], [slash], [dot]]) :
    ((partsAt slash tail).filter (· != [])).filter (· != Name.here) = [] := by
  simp only [List.mem_cons, List.not_mem_nil, or_false] at htail
  rcases htail with rfl | rfl | rfl <;> rfl

theorem Respelled.way (h : d.Respelled d') : d'.way = d.way := by
  cases h with
  | here =>
    rw [way_eq, way_eq, partsAt_here]
    rfl
  | onward htail =>
    rw [way_eq, way_eq, partsAt_append_cons, List.filter_append, List.filter_append,
      filter_partsAt_tail htail, List.append_nil]

theorem Respelled.length_lt (h : d.Respelled d') : d.bytes.length < d'.bytes.length := by
  cases h with
  | here => exact Nat.lt_add_of_pos_right (Nat.succ_pos 1)
  | onward => simp

/-- A relative path starts with a name. -/
theorem exists_first_name (hne : d.bytes ≠ []) (hrelative : d.isAbsolute = false) :
    ∃ name names, (partsAt slash d.bytes).filter (· != []) = name :: names := by
  obtain ⟨first, parts, hparts⟩ := List.exists_cons_of_ne_nil (partsAt_ne_nil slash d.bytes)
  have hfirst : first ≠ [] := by
    rintro rfl
    rcases head?_partsAt_eq_nil (by rw [hparts]; rfl) with hnil | ⟨rest, hslash⟩
    · exact hne hnil
    · rw [isAbsolute, hslash] at hrelative
      cases hrelative
  exact ⟨first, _, by rw [hparts, List.filter_cons_of_pos (by simpa using hfirst)]⟩

/-- What a path ends in does not matter to its components, if it stays where it is. -/
theorem components_onward (hne : d.bytes ≠ []) (htail : tail ∈ [[], [slash], [dot]]) :
    (⟨d.bytes ++ slash :: tail⟩ : Path).components = d.components := by
  have habsolute : (⟨d.bytes ++ slash :: tail⟩ : Path).isAbsolute = d.isAbsolute := by
    simp only [isAbsolute, List.head?_append_of_ne_nil _ hne]
  have hstays := filter_partsAt_tail htail
  simp only [components, habsolute, partsAt_append_cons, List.filter_append]
  cases hd : d.isAbsolute with
  | true => simp only [if_true, hstays, List.append_nil]
  | false =>
    obtain ⟨name, names, hnames⟩ := exists_first_name hne hd
    simp [hnames, hstays]

/-! ## What is below a directory -/

/-- A path that ends in a separator has an empty part. -/
theorem nil_mem_partsAt_of_getLast? {bytes : Bytes} (h : bytes.getLast? = some slash) :
    [] ∈ partsAt slash bytes := by
  obtain ⟨front, rfl⟩ := List.getLast?_eq_some_iff.mp h
  rw [partsAt_append_cons]
  exact List.mem_append_right _ List.mem_cons_self

theorem names_below (hne : rel ≠ []) (hnamed : Named rel) :
    (⟨before ++ slash :: (ofNames rel).bytes⟩ : Path).names =
      (partsAt slash before).filter (· != []) ++ rel := by
  have hparts := partsAt_ofNames hne hnamed
  have hends : (⟨before ++ slash :: (ofNames rel).bytes⟩ : Path).endsInSlash = false := by
    by_contra hends
    rw [Bool.not_eq_false, endsInSlash_iff] at hends
    have hmem : [] ∈ partsAt slash (ofNames rel).bytes := by
      by_cases hnil : (ofNames rel).bytes = []
      · rw [hnil]
        exact List.mem_cons_self
      · rw [List.getLast?_append_of_ne_nil _ (List.cons_ne_nil _ _),
          List.getLast?_cons_of_ne_nil hnil] at hends
        exact nil_mem_partsAt_of_getLast? hends
    rw [hparts] at hmem
    exact (hnamed [] hmem).1 rfl
  rw [names, hends, partsAt_append_cons, hparts, List.filter_append,
    filter_ne_nil_of_named hnamed]
  exact List.append_nil _

/-- The path to something below a directory is spelled with a separator in between, which may be the
last one of the directory. -/
theorem exists_before (hroot : root.bytes ≠ []) (hnamed : Named rel) :
    ∃ before, root.join (.ofNames rel) = ⟨before ++ slash :: (ofNames rel).bytes⟩ ∧
      (before = root.bytes ∨ root.bytes = before ++ [slash]) := by
  rcases bytes_join hroot (isAbsolute_ofNames hnamed) with ⟨-, hpath⟩ | ⟨hends, hpath⟩
  · exact ⟨root.bytes, congrArg mk hpath, .inl rfl⟩
  · obtain ⟨before, hbefore⟩ := List.getLast?_eq_some_iff.mp (endsInSlash_iff.mp hends)
    refine ⟨before, congrArg mk (hpath.trans ?_), .inr hbefore⟩
    rw [hbefore, List.append_assoc]
    rfl

/-- The path to something below a directory goes the way of the directory and on. -/
theorem names_join (hroot : root.bytes ≠ []) (hne : rel ≠ []) (hnamed : Named rel) :
    (root.join (.ofNames rel)).names = (partsAt slash root.bytes).filter (· != []) ++ rel := by
  obtain ⟨before, hpath, hbefore⟩ := exists_before hroot hnamed
  rw [hpath, names_below hne hnamed]
  rcases hbefore with rfl | hbefore
  · rfl
  · rw [hbefore, partsAt_append_cons, List.filter_append]
    simp [partsAt]

/-- A longer directory gives longer paths, unless it only has the separator more. -/
theorem length_join_le (hd : d.bytes ≠ []) (hlt : d.bytes.length < d'.bytes.length)
    (hnamed : Named rel) :
    (d.join (.ofNames rel)).bytes.length ≤ (d'.join (.ofNames rel)).bytes.length := by
  obtain ⟨before, hpath, hbefore⟩ := exists_before hd hnamed
  obtain ⟨before', hpath', hbefore'⟩ :=
    exists_before (List.ne_nil_of_length_pos (Nat.zero_lt_of_lt hlt)) hnamed
  have hshorter : before.length ≤ d.bytes.length := by
    rcases hbefore with rfl | hbefore
    · rfl
    · simp [hbefore]
  have hlonger : d'.bytes.length ≤ before'.length + 1 := by
    rcases hbefore' with rfl | hbefore'
    · omega
    · simp [hbefore']
  rw [hpath, hpath']
  dsimp only
  rw [List.length_append, List.length_append]
  omega

/-- A path below a directory that can be spelled holds no NUL byte if its end does not. -/
theorem nul_mem_join_iff (hroot : root.bytes ≠ []) (hnul : 0 ∉ root.bytes) (hnamed : Named rel) :
    0 ∈ (root.join (.ofNames rel)).bytes ↔ 0 ∈ (ofNames rel).bytes := by
  obtain ⟨before, hpath, hbefore⟩ := exists_before hroot hnamed
  have hbefore : 0 ∉ before := by
    rcases hbefore with rfl | hbefore
    · exact hnul
    · exact fun hmem => hnul (hbefore ▸ List.mem_append_left _ hmem)
  have hslash : (0 : UInt8) ≠ slash := by decide
  simp [hpath, hbefore, hslash]

end Path

namespace FileTree

variable {tree : FileTree} {d d' root : Path} {loc loc' : Location} {rel : List Name}

/-- What is below a directory is a file if the way of the directory goes on to one, and the path to
it can be spelled and is not too long. -/
theorem isFile_join_iff (hroot : tree.resolve? root = .ok loc) (hne : rel ≠ [])
    (hnamed : Named rel) : tree.isFile (root.join (.ofNames rel)) = true ↔
      (root.join (.ofNames rel)).bytes.length < pathLimit ∧ 0 ∉ (Path.ofNames rel).bytes ∧
        ∃ place data, tree.walk true linkLimit [] (root.way ++ rel) = .ok (.found place) ∧
          tree.get? place = some (.file data) := by
  obtain ⟨⟨hnul, hnil, -⟩, -⟩ := resolve?_eq_ok_iff.mp hroot
  have hnil' : (root.join (.ofNames rel)).bytes ≠ [] := by
    obtain ⟨before, hpath, -⟩ := Path.exists_before hnil hnamed
    rw [hpath]
    exact List.append_ne_nil_of_right_ne_nil _ (List.cons_ne_nil _ _)
  rw [isFile_iff, Path.names_join hnil hne hnamed, walk_way hne, ← Path.way_eq,
    Path.nul_mem_join_iff hnil hnul hnamed, and_iff_right hnil', and_assoc, and_left_comm]

/-- A link below another spelling of a directory leads to a file if it does so below the directory,
as long as the path to it is not too long. -/
theorem isFile_join_of_respelled (hspelled : d.Respelled d') (hd : tree.resolve? d = .ok loc)
    (hd' : tree.resolve? d' = .ok loc') (hne : rel ≠ []) (hnamed : Named rel) :
    tree.isFile (d'.join (.ofNames rel)) = true ↔ tree.isFile (d.join (.ofNames rel)) = true ∧
      (d'.join (.ofNames rel)).bytes.length < pathLimit := by
  have hlength := Path.length_join_le (ne_nil_of_resolve? hd) hspelled.length_lt hnamed
  rw [isFile_join_iff hd hne hnamed, isFile_join_iff hd' hne hnamed, hspelled.way]
  constructor
  · rintro ⟨hshort, hleads⟩
    exact ⟨⟨hlength.trans_lt hshort, hleads⟩, hshort⟩
  · rintro ⟨⟨-, hleads⟩, hshort⟩
    exact ⟨hshort, hleads⟩

end FileTree

namespace Collection

variable {o : Options} {s : Selection} {tree : FileTree} {loc loc' : Location} {d d' : Path}
  {rel : List Name} {node : Node}

/-- A directory that is not spelled with `./` in front is not respelled with `./` twice. -/
theorem not_twiceHere_of_respelled (hspelled : d.Respelled d')
    (hhere : ¬ [dot, slash] <+: d.bytes) : ¬ TwiceHere d' := by
  rintro ⟨rest, hrest, hd'⟩
  obtain ⟨bytes⟩ := d
  cases hspelled with
  | here =>
    refine hhere ⟨rest, ?_⟩
    simpa using hd'.symm
  | onward htail =>
    match bytes with
    | [] => cases (List.cons_eq_cons.mp hd').1
    | [b] =>
      -- the second `./` would have to fit into what has been put behind
      obtain ⟨-, htail'⟩ := List.cons_eq_cons.mp (List.cons_eq_cons.mp hd').2
      rw [htail'] at htail
      simp at htail
    | b :: b' :: others =>
      obtain ⟨rfl, hgoesOn⟩ := List.cons_eq_cons.mp hd'
      obtain ⟨rfl, -⟩ := List.cons_eq_cons.mp hgoesOn
      exact hhere ⟨others, rfl⟩

/-- The selection sees the same path below every spelling of the root. -/
theorem admits_respelled (hspelled : d.Respelled d') (hhere : ¬ [dot, slash] <+: d.bytes)
    (hd : d.bytes ≠ []) (hnamed : Named rel) (isDir : Bool) :
    admits s d' rel isDir = admits s d rel isDir := by
  have hd' : d'.bytes ≠ [] := List.ne_nil_of_length_pos (Nat.zero_lt_of_lt hspelled.length_lt)
  have honce : ¬ TwiceHere d := fun ⟨rest, _, hrest⟩ => hhere ⟨_, hrest.symm⟩
  rw [admits, admits, candidate_ofNames hd hnamed, candidate_ofNames hd' hnamed, seenBelow,
    seenBelow, lead_eq_nil_iff.mpr honce,
    lead_eq_nil_iff.mpr (not_twiceHere_of_respelled hspelled hhere)]

/-- No spelling stands for standard input if the directory does not. -/
theorem components_ne_standardInput (hspelled : d.Respelled d') (hd : d.bytes ≠ [])
    (hinput : d.components ≠ [standardInput]) : d'.components ≠ [standardInput] := by
  cases hspelled with
  | here =>
    rw [Path.components_here]
    exact fun h => absurd (List.cons_eq_cons.mp h).1 (by decide)
  | onward htail => rwa [Path.components_onward hd htail]

/-- A link below the root that is not looked up because the path to it is too long. -/
def overlong (tree : FileTree) (loc : Location) (root file : Path) : Bool :=
  (match tree.get? (loc ++ file.components) with
    | some (.link _) => true
    | _ => false) &&
  FileTree.pathLimit ≤ (root.join file).bytes.length

section Below

variable (hspelled : d.Respelled d') (hhere : ¬ [dot, slash] <+: d.bytes)
  (hd : tree.resolve? d = .ok loc) (hd' : tree.resolve? d' = .ok loc) (hnamed : Named rel)

include hspelled hhere hd hnamed

/-- The same directories are entered below every spelling of the root. -/
theorem reached_respelled :
    reached s d' (tree.below loc) rel = reached s d (tree.below loc) rel := by
  rw [Bool.eq_iff_iff, reached_iff, reached_iff]
  refine forall_congr' fun dir => imp_congr_right fun _ => forall_congr' fun hstart => ?_
  rw [admits_respelled hspelled hhere (FileTree.ne_nil_of_resolve? hd) (hnamed.of_isPrefix hstart)]

include hd'

/-- The same is collected below every spelling of the root, except for links that are overlong. -/
theorem collects_respelled (hthere : (rel, node) ∈ tree.below loc) :
    collects s tree d' rel node =
      (!overlong tree loc d' (.ofNames rel) && collects s tree d rel node) := by
  obtain ⟨hne, hget⟩ := FileTree.mem_below_iff.mp hthere
  have hadmits := admits_respelled (s := s) hspelled hhere (FileTree.ne_nil_of_resolve? hd) hnamed
    false
  rw [overlong, Path.components_ofNames hnamed, hget]
  cases node with
  | file data => exact hadmits
  | dir => exact (Bool.and_false _).symm
  | link target =>
    have hleads := FileTree.isFile_join_of_respelled hspelled hd hd' hne hnamed
    rw [Bool.eq_iff_iff]
    simp only [collects, hadmits, hleads, Bool.and_eq_true, Bool.true_and, Bool.not_eq_true',
      decide_eq_false_iff_not, not_le]
    tauto

end Below

/-- **A run collects the same files, however its root is spelled**, except for links to which the
path is too long in the other spelling. If the root is the name of standard input, the other
spelling has to stand for that, too. -/
theorem collect_respelled {files files' : List Path}
    (hhere : ¬ [dot, slash] <+: o.root.bytes) (hspelled : o.root.Respelled d')
    (hinput : o.root.components = [standardInput] → d'.components = [standardInput])
    (h : collect o tree = .ok files) (h' : collect { o with root := d' } tree = .ok files') :
    ∃ loc, tree.resolve? o.root = .ok loc ∧ tree.resolve? d' = .ok loc ∧
      files' = files.filter (fun file => !overlong tree loc d' file) ∧
      (files' = files ↔ ∀ file ∈ files, overlong tree loc d' file = false) := by
  obtain ⟨loc, s, hloc, hdir, hs, hfiles⟩ := collect_eq_ok_iff_among.mp h
  obtain ⟨loc', s', hloc', hdir', hs', hfiles'⟩ := collect_eq_ok_iff_among.mp h'
  cases hs.symm.trans hs'
  cases FileTree.eq_of_way_eq hspelled.way.symm hloc hdir hloc' hdir'
  have hfilter : files' = files.filter fun file => !overlong tree loc d' file := by
    rcases hfiles with ⟨hstdin, rfl⟩ | ⟨hstdin, hamong⟩
    · rcases hfiles' with ⟨-, rfl⟩ | ⟨hstdin', -⟩
      · rfl
      · exact absurd (hinput hstdin) hstdin'
    rcases hfiles' with ⟨hstdin', -⟩ | ⟨-, hamong'⟩
    · exact absurd hstdin'
        (components_ne_standardInput hspelled (FileTree.ne_nil_of_resolve? hloc) hstdin)
    obtain ⟨-, rfl⟩ := among_eq_iff.mp hamong
    obtain ⟨-, rfl⟩ := among_eq_iff.mp hamong'
    rw [List.filter_map, List.filter_filter]
    congr 1
    refine List.filter_congr fun ⟨rel, node⟩ hthere => ?_
    have hrel := FileTree.named_of_mem_below hthere
    rw [reached_respelled hspelled hhere hloc hrel,
      collects_respelled hspelled hhere hloc hloc' hrel hthere, Bool.and_left_comm]
    rfl
  refine ⟨loc, hloc, hloc', hfilter, ?_⟩
  rw [hfilter, List.filter_eq_self]
  simp only [Bool.not_eq_true']

/-- A tree with a file and a link below a directory that is hidden and named as an exclusion. -/
def distTree : FileTree := FileTree.empty.attemptAll
  [.file (.ofString ".git/dist/a.js") [], .link (.ofString ".git/dist/b.js") (Utf8.encode "a.js")]

/-- Both are collected below that directory, with `./` in front of it and without, as the path to
the link is short. -/
theorem collect_respelled_hidden :
    collect (.ofRoot (.ofString ".git/dist")) distTree =
        .ok [.ofString "a.js", .ofString "b.js"] ∧
      collect (.ofRoot (.ofString "./.git/dist")) distTree =
        .ok [.ofString "a.js", .ofString "b.js"] ∧
      overlong distTree [Utf8.encode ".git", Utf8.encode "dist"] (.ofString "./.git/dist")
        (.ofString "b.js") = false := by
  have hcollect : collect (.ofRoot (.ofString ".git/dist")) distTree =
      .ok [.ofString "a.js", .ofString "b.js"] := by
    decide +kernel
  have hcollect' : collect (.ofRoot (.ofString "./.git/dist")) distTree =
      .ok [.ofString "a.js", .ofString "b.js"] := by
    decide +kernel
  have hspelled : (Path.ofString ".git/dist").Respelled (.ofString "./.git/dist") :=
    .here (by decide +kernel)
  obtain ⟨loc, hloc, -, -, hsame⟩ := collect_respelled (by decide +kernel) hspelled
    (fun hinput => absurd hinput (by decide +kernel)) hcollect hcollect'
  have hroot : distTree.resolve? (.ofString ".git/dist") =
      .ok [Utf8.encode ".git", Utf8.encode "dist"] := by
    decide +kernel
  cases hloc.symm.trans hroot
  exact ⟨hcollect, hcollect', hsame.mp rfl _ (List.mem_cons_of_mem _ List.mem_cons_self)⟩

/-- With `./` in front, the name of standard input stands for a directory. -/
theorem respelled_dash_differs :
    ¬ ∀ (o : Options) (tree : FileTree) (d' : Path) (files files' : List Path),
      ¬ [dot, slash] <+: o.root.bytes → o.root.Respelled d' → collect o tree = .ok files →
      collect { o with root := d' } tree = .ok files' → files' = files := by
  intro h
  have hhere : collect (.ofRoot (.ofString "./-")) dashTree = .ok [.ofString "a.js"] := by
    decide +kernel
  have hspelled : (Path.ofString "-").Respelled (.ofString "./-") := .here (by decide +kernel)
  cases h _ dashTree _ _ _ (by decide +kernel) hspelled collect_dash hhere

end Collection

end ConsoleSweep
