import ConsoleSweep.Collect
import ConsoleSweep.Proofs.Text.Parts

/-!
# What a selection sees of a path

The selection of a run is asked about a path that the root has been put in front of, and takes the
root off again. It takes `./` off the path twice and off the root once, so `candidate_join` says
that what it sees is the path below the root unless the root is spelled with `./` twice. Then the
rest of the root stays in front: it is the `lead` of the root (`candidate_ofNames`).
-/

namespace ConsoleSweep

namespace Path

theorem head?_partsAt_eq_nil {bytes : Bytes} (h : (partsAt slash bytes).head? = some []) :
    bytes = [] ∨ ∃ rest, bytes = slash :: rest := by
  cases bytes with
  | nil => exact .inl rfl
  | cons b rest =>
    by_cases hb : b = slash
    · exact .inr ⟨rest, by rw [hb]⟩
    · rw [partsAt] at h
      split at h
      · cases h
      · rw [if_neg hb] at h
        cases h

/-- A path that goes nowhere is `.` or starts with `./`. -/
theorem eq_dot_or_here {bytes : Bytes} (h : (⟨bytes⟩ : Path).components = [Name.here]) :
    bytes = [dot] ∨ [dot, slash] <+: bytes := by
  cases bytes with
  | nil => cases h
  | cons b rest =>
    unfold components at h
    by_cases hb : b = slash
    · subst hb
      cases (List.cons_eq_cons.mp h).1
    · have hrelative : isAbsolute ⟨b :: rest⟩ = false := by simp [isAbsolute, hb]
      simp only [hrelative, Bool.false_eq_true, if_false, partsAt] at h
      cases hparts : partsAt slash rest with
      | nil => exact absurd hparts (partsAt_ne_nil slash rest)
      | cons part parts =>
        simp only [hparts, if_neg hb, List.filter_cons] at h
        obtain ⟨hfirst, -⟩ := List.cons_eq_cons.mp h
        cases hfirst
        rcases head?_partsAt_eq_nil (by rw [hparts]; rfl) with rfl | ⟨rest, rfl⟩
        · exact .inl rfl
        · exact .inr ⟨rest, rfl⟩

theorem partsAt_here (rest : Bytes) :
    partsAt slash (dot :: slash :: rest) = Name.here :: partsAt slash rest :=
  partsAt_append_cons [dot] rest

/-- A path that starts with `./` goes through the parts after that which do not stay where they
are. -/
theorem components_here (rest : Bytes) : (⟨dot :: slash :: rest⟩ : Path).components =
    Name.here :: ((partsAt slash rest).filter (· != [])).filter (· != Name.here) := by
  have hrelative : isAbsolute ⟨dot :: slash :: rest⟩ = false := rfl
  simp only [components, partsAt_here, hrelative]
  rfl

/-- A path below a directory is spelled with a separator in between, which the directory may end
in. -/
theorem bytes_join {root rel : Path} (hroot : root.bytes ≠ []) (hrel : rel.isAbsolute = false) :
    root.endsInSlash = false ∧ (root.join rel).bytes = root.bytes ++ (slash :: rel.bytes) ∨
      root.endsInSlash = true ∧ (root.join rel).bytes = root.bytes ++ rel.bytes := by
  unfold join
  rw [if_neg (by simp [hrel, hroot])]
  by_cases hends : root.endsInSlash = true
  · rw [if_pos hends]
    exact .inr ⟨hends, rfl⟩
  · rw [if_neg hends]
    exact .inl ⟨eq_false_of_ne_true hends, rfl⟩

/-- A path through proper names neither starts with a separator nor with `./`. -/
theorem ofNames_of_named {names : List Name} (h : Location.Named names) :
    (ofNames names).bytes.head? ≠ some slash ∧ ¬ [dot, slash] <+: (ofNames names).bytes := by
  cases names with
  | nil => exact ⟨nofun, by decide⟩
  | cons first rest =>
    obtain ⟨hne, hslash, hhere, -⟩ := h first List.mem_cons_self
    obtain ⟨tail, htail⟩ : ∃ tail, (ofNames (first :: rest)).bytes = first ++ tail := by
      cases rest with
      | nil => exact ⟨[], by simp [ofNames, List.intercalate]⟩
      | cons second rest => exact ⟨_, by simp [ofNames, List.intercalate]; rfl⟩
    rw [htail]
    match first with
    | [] => exact absurd rfl hne
    | [b] =>
      rw [List.mem_singleton] at hslash
      refine ⟨fun hb => hslash (Option.some.inj hb).symm, ?_⟩
      rintro ⟨others, hothers⟩
      cases hothers
      exact hhere rfl
    | b :: b' :: name =>
      simp only [List.mem_cons, not_or] at hslash
      refine ⟨fun hb => hslash.1 (Option.some.inj hb).symm, ?_⟩
      rintro ⟨others, hothers⟩
      cases hothers
      exact hslash.2.1 rfl

theorem isAbsolute_ofNames {names : List Name} (h : Location.Named names) :
    (ofNames names).isAbsolute = false := by
  simpa [isAbsolute] using (ofNames_of_named h).1

theorem filter_ne_nil_of_named {names : List Name} (h : Location.Named names) :
    names.filter (· != []) = names :=
  List.filter_eq_self.mpr fun name hname => by simpa using (h name hname).1

/-- A path through proper names has them as its parts. -/
theorem partsAt_ofNames {names : List Name} (hne : names ≠ []) (h : Location.Named names) :
    partsAt slash (ofNames names).bytes = names :=
  partsAt_intercalate hne fun name hname => (h name hname).2.1

/-- A path through proper names goes through just these. -/
theorem components_ofNames {names : List Name} (h : Location.Named names) :
    (ofNames names).components = names := by
  by_cases hne : names = []
  · rw [hne]
    rfl
  have hrest : (names.drop 1).filter (· != Name.here) = names.drop 1 :=
    List.filter_eq_self.mpr fun name hname => by
      simpa using (h name (List.mem_of_mem_drop hname)).2.2.1
  simp only [components, partsAt_ofNames hne h, filter_ne_nil_of_named h, isAbsolute_ofNames h,
    Bool.false_eq_true, if_false, hrest, List.take_append_drop]

theorem endsInSlash_iff {bytes : Bytes} :
    (⟨bytes⟩ : Path).endsInSlash = true ↔ bytes.getLast? = some slash := beq_iff_eq

end Path

namespace Collection

theorem dropLead?_append (lead rest : Bytes) : dropLead? lead (lead ++ rest) = some rest := by
  simp [dropLead?]

theorem withoutHere_here (rest : Bytes) : withoutHere (dot :: slash :: rest) = rest := rfl

theorem withoutHere_of_not {bytes : Bytes} (h : ¬ [dot, slash] <+: bytes) :
    withoutHere bytes = bytes := by
  unfold withoutHere dropLead?
  rw [if_neg (by rwa [List.isPrefixOf_iff_prefix])]
  rfl

/-- A path as it is seen from a root, once `./` has been dropped from both. -/
def seenFrom (base seen : Bytes) : Bytes :=
  if (⟨base⟩ : Path).components == [Name.here] || !seen.contains slash then seen
  else
    match dropLead? base seen with
    | some rest => (dropLead? [slash] rest).getD rest
    | none => seen

theorem candidate_eq (root path : Path) : candidate root path =
    seenFrom (withoutHere root.bytes) (withoutHere (withoutHere path.bytes)) := rfl

section Below

variable {base rel : Bytes}

theorem dropLead?_slash (hrel : rel.head? ≠ some slash) : dropLead? [slash] rel = none := by
  unfold dropLead?
  rw [if_neg]
  rw [List.isPrefixOf_iff_prefix]
  rintro ⟨rest, rfl⟩
  exact hrel rfl

theorem seenFrom_nil (hrel : rel.head? ≠ some slash) : seenFrom [] rel = rel := by
  unfold seenFrom
  split
  · rfl
  · rw [show dropLead? [] rel = some rel from dropLead?_append [] rel]
    simp [dropLead?_slash hrel]

theorem seenFrom_here (h : (⟨base⟩ : Path).components = [Name.here]) (seen : Bytes) :
    seenFrom base seen = seen := by
  rw [seenFrom, h]
  rfl

/-- Taking the root off again leaves what is below it. -/
theorem seenFrom_below {seen : Bytes} (hdot : base ≠ [dot]) (hhere : ¬ [dot, slash] <+: base)
    (hrel : rel.head? ≠ some slash)
    (hseen : seen = base ++ (slash :: rel) ∨ seen = base ++ rel ∧ base.getLast? = some slash) :
    seenFrom base seen = rel := by
  have hsomewhere : (⟨base⟩ : Path).components ≠ [Name.here] := by
    intro h
    rcases Path.eq_dot_or_here h with h | h
    · exact hdot h
    · exact hhere h
  have hcontains : seen.contains slash = true := by
    rw [List.contains_iff_mem]
    rcases hseen with rfl | ⟨rfl, hlast⟩
    · simp
    · exact List.mem_append_left _ (List.mem_of_getLast? hlast)
  rw [seenFrom, hcontains, if_neg (by simp [hsomewhere])]
  rcases hseen with rfl | ⟨rfl, -⟩
  · rw [dropLead?_append]
    rfl
  · rw [dropLead?_append]
    simp [dropLead?_slash hrel]

end Below

/-- What goes on from a path that does not start with `./` does not either. -/
theorem not_here_append {base : Bytes} (hne : base ≠ []) (hdot : base ≠ [dot])
    (hhere : ¬ [dot, slash] <+: base) (rest : Bytes) : ¬ [dot, slash] <+: base ++ rest := by
  match base with
  | [] => exact absurd rfl hne
  | [b] =>
    rintro ⟨tail, htail⟩
    cases htail
    exact hdot rfl
  | b :: b' :: base =>
    rintro ⟨tail, htail⟩
    cases htail
    exact hhere ⟨base, rfl⟩

/-- What is below a root that starts with `./` is seen from it, unless that stands there twice. -/
theorem seenFrom_withoutHere {base rel tail : Bytes}
    (honce : ∀ rest, base = dot :: slash :: rest → rest = [])
    (hrel : rel.head? ≠ some slash) (hrel' : ¬ [dot, slash] <+: rel)
    (htail : base ≠ [] ∧ base.getLast? ≠ some slash ∧ tail = base ++ (slash :: rel) ∨
      (base = [] ∨ base.getLast? = some slash) ∧ tail = base ++ rel) :
    seenFrom base (withoutHere tail) = rel := by
  by_cases hnil : base = []
  · subst hnil
    rcases htail with ⟨hne, -⟩ | ⟨-, rfl⟩
    · exact absurd rfl hne
    · rw [withoutHere_of_not hrel', seenFrom_nil hrel]
  by_cases hdot : base = [dot]
  · subst hdot
    rcases htail with ⟨-, -, rfl⟩ | ⟨hends, -⟩
    · exact seenFrom_here rfl _
    · exact absurd hends (by decide)
  by_cases hhere : [dot, slash] <+: base
  · obtain ⟨rest, rfl⟩ := hhere
    cases honce rest rfl
    rcases htail with ⟨-, hends, -⟩ | ⟨-, rfl⟩
    · exact absurd rfl hends
    · exact seenFrom_here rfl _
  · have hkept : withoutHere tail = tail := by
      rcases htail with ⟨-, -, rfl⟩ | ⟨-, rfl⟩
      · exact withoutHere_of_not (not_here_append hnil hdot hhere _)
      · exact withoutHere_of_not (not_here_append hnil hdot hhere _)
    rw [hkept]
    refine seenFrom_below hdot hhere hrel ?_
    rcases htail with ⟨-, -, rfl⟩ | ⟨hends, rfl⟩
    · exact .inl rfl
    · exact .inr ⟨rfl, hends.resolve_left hnil⟩

/-- **What is below the root is seen from the root**, unless the root is spelled with `./` twice. -/
theorem candidate_join {root : Path} {rel : Bytes} (hroot : root.bytes ≠ [])
    (honce : ∀ rest, root.bytes = dot :: slash :: dot :: slash :: rest → rest = [])
    (hrel : rel.head? ≠ some slash) (hrel' : ¬ [dot, slash] <+: rel) :
    candidate root (root.join ⟨rel⟩) = rel := by
  have hrelative : (⟨rel⟩ : Path).isAbsolute = false := by simpa [Path.isAbsolute] using hrel
  have hjoin := Path.bytes_join hroot hrelative
  rw [candidate_eq]
  obtain ⟨root⟩ := root
  by_cases hdot : root = [dot]
  · subst hdot
    have hpath : ((⟨[dot]⟩ : Path).join ⟨rel⟩).bytes = dot :: slash :: rel := by
      rcases hjoin with ⟨-, hpath⟩ | ⟨hends, -⟩
      · exact hpath
      · exact absurd hends (by decide)
    rw [hpath, withoutHere_here, withoutHere_of_not hrel']
    exact seenFrom_here rfl rel
  by_cases hhere : [dot, slash] <+: root
  · -- one `./` is dropped from both, and the path may have another one
    obtain ⟨base, rfl⟩ := hhere
    obtain ⟨tail, htail, hpath⟩ : ∃ tail, (base ≠ [] ∧ base.getLast? ≠ some slash ∧
          tail = base ++ (slash :: rel) ∨ (base = [] ∨ base.getLast? = some slash) ∧
          tail = base ++ rel) ∧
        ((⟨[dot, slash] ++ base⟩ : Path).join ⟨rel⟩).bytes = dot :: slash :: tail := by
      have hends : (⟨[dot, slash] ++ base⟩ : Path).endsInSlash = true ↔
          base = [] ∨ base.getLast? = some slash := by
        rw [Path.endsInSlash_iff]
        cases base <;> simp
      rcases hjoin with ⟨hends', hpath⟩ | ⟨hends', hpath⟩
      · rw [← Bool.not_eq_true, hends, not_or] at hends'
        exact ⟨_, .inl ⟨hends'.1, hends'.2, rfl⟩, hpath⟩
      · exact ⟨_, .inr ⟨hends.mp hends', rfl⟩, hpath⟩
    rw [hpath, withoutHere_here]
    refine seenFrom_withoutHere (fun rest hrest => ?_) hrel hrel' htail
    have hbase : base = dot :: slash :: rest := hrest
    exact honce rest (by rw [hbase]; rfl)
  · have hkept : ∀ rest, withoutHere (root ++ rest) = root ++ rest := fun rest =>
      withoutHere_of_not (not_here_append hroot hdot hhere rest)
    rw [withoutHere_of_not hhere]
    rcases hjoin with ⟨-, hpath⟩ | ⟨hends, hpath⟩
    · rw [hpath, hkept, hkept]
      exact seenFrom_below hdot hhere hrel (.inl rfl)
    · rw [hpath, hkept, hkept]
      exact seenFrom_below hdot hhere hrel (.inr ⟨rfl, Path.endsInSlash_iff.mp hends⟩)

/-! ## Every spelling of the root -/

/-- A root that is spelled with `./` twice, and something after it. -/
def TwiceHere (root : Path) : Prop :=
  ∃ rest, rest ≠ [] ∧ root.bytes = dot :: slash :: dot :: slash :: rest

/-- What a selection sees in front of a path below the root: nothing, unless the root is spelled
with `./` twice. Then it is the rest of the root, with the separator that goes after it. -/
def lead (root : Path) : Bytes :=
  match dropLead? [dot, slash, dot, slash] root.bytes with
  | none => []
  | some rest => if rest = [] ∨ rest.getLast? = some slash then rest else rest ++ [slash]

theorem lead_of_twice {root : Path} {rest : Bytes}
    (h : root.bytes = dot :: slash :: dot :: slash :: rest) : lead root =
      if rest = [] ∨ rest.getLast? = some slash then rest else rest ++ [slash] := by
  have hrest : dropLead? [dot, slash, dot, slash] root.bytes = some rest := by
    rw [h]
    exact dropLead?_append [dot, slash, dot, slash] rest
  rw [lead, hrest]

theorem lead_eq_nil_iff {root : Path} : lead root = [] ↔ ¬ TwiceHere root := by
  constructor
  · rintro hnil ⟨rest, hne, hroot⟩
    rw [lead_of_twice hroot] at hnil
    split at hnil
    · exact hne hnil
    · simp at hnil
  · intro honce
    unfold lead dropLead?
    split
    · rfl
    next rest hrest =>
      split at hrest
      next hstart =>
        obtain ⟨rest', hroot⟩ := List.isPrefixOf_iff_prefix.mp hstart
        rw [← hroot, List.drop_left] at hrest
        cases hrest
        by_contra hne
        refine honce ⟨rest, ?_, hroot.symm⟩
        rintro rfl
        exact hne rfl
      next => cases hrest

/-- If the rest of a root goes on as a root spelled with one more `./` does, nothing else is in it.
-/
theorem components_of_goesOn {rest tail : Bytes} (htail : ¬ [dot, slash] <+: tail)
    (h : dot :: slash :: rest <+: rest ++ tail) :
    (⟨dot :: slash :: rest⟩ : Path).components = [Name.here] := by
  match rest with
  | [] => exact absurd h htail
  | [b] =>
    obtain ⟨rfl, -⟩ := List.cons_prefix_cons.mp h
    rfl
  | b :: b' :: rest =>
    obtain ⟨rfl, h⟩ := List.cons_prefix_cons.mp h
    obtain ⟨rfl, h⟩ := List.cons_prefix_cons.mp h
    have hrest := components_of_goesOn htail h
    rw [Path.components_here] at hrest ⊢
    rwa [Path.partsAt_here]

/-- With `./` twice in the root, the rest of the root stays in front of the path. -/
theorem seenFrom_twice {rest tail : Bytes} (htail : ¬ [dot, slash] <+: tail) :
    seenFrom (dot :: slash :: rest) (rest ++ tail) = rest ++ tail := by
  by_cases hhere : (⟨dot :: slash :: rest⟩ : Path).components = [Name.here]
  · exact seenFrom_here hhere _
  · have hkept : dropLead? (dot :: slash :: rest) (rest ++ tail) = none := by
      unfold dropLead?
      rw [if_neg]
      rw [List.isPrefixOf_iff_prefix]
      exact fun hstart => hhere (components_of_goesOn htail hstart)
    unfold seenFrom
    rw [hkept]
    split <;> rfl

/-- A path below the root as the selection sees it. -/
def seenBelow (root : Path) (rel : List Name) : Bytes := lead root ++ (Path.ofNames rel).bytes

/-- **What a selection sees of a path below the root**, however the root is spelled. -/
theorem candidate_ofNames {root : Path} {rel : List Name} (hroot : root.bytes ≠ [])
    (hnamed : Location.Named rel) :
    candidate root (root.join (.ofNames rel)) = seenBelow root rel := by
  obtain ⟨hrel, hrel'⟩ := Path.ofNames_of_named hnamed
  by_cases htwice : TwiceHere root
  · obtain ⟨rest, hne, hrest⟩ := htwice
    have hends : root.endsInSlash = true ↔ rest = [] ∨ rest.getLast? = some slash := by
      rw [Path.endsInSlash, hrest, beq_iff_eq]
      cases rest <;> simp
    rw [candidate_eq, seenBelow, lead_of_twice hrest]
    rcases Path.bytes_join hroot (Path.isAbsolute_ofNames hnamed) with ⟨hno, hpath⟩ | ⟨hyes, hpath⟩
    · have hno' : ¬ (rest = [] ∨ rest.getLast? = some slash) := by
        rw [← hends, hno]
        nofun
      rw [hpath, hrest, if_neg hno', List.append_assoc]
      exact seenFrom_twice nofun
    · rw [hpath, hrest, if_pos (hends.mp hyes)]
      exact seenFrom_twice hrel'
  · rw [seenBelow, lead_eq_nil_iff.mpr htwice]
    refine candidate_join hroot (fun rest hrest => ?_) hrel hrel'
    by_contra hne
    exact htwice ⟨rest, hne, hrest⟩

end Collection

end ConsoleSweep
