import ConsoleSweep.Text.Utf8

/-!
# Reading and writing UTF-8

Reading a byte sequence as pieces loses no byte (`join_pieces`), and a text is read back from its
encoding (`decode?_encode`). So a byte sequence is text exactly when it is the encoding of that text
(`decode?_eq_some_iff`), which is what makes it safe to rewrite a file through its text.

## Shape of the argument

The reader carries the character under way. `Partial.Sound` says of it that, whichever bytes
complete the character, its encoding starts with the bytes seen. Every first byte starts a sound
one (`sound_of_lead`), by the arithmetic of two, three and four bytes; the rest is induction on the
bytes.
-/

namespace ConsoleSweep.Utf8

/-! ## The arithmetic of one character -/

/-- The low six bits of a byte. -/
private theorem and_63 (n : Nat) : n &&& 0x3F = n % 64 := Nat.and_two_pow_sub_one_eq_mod n 6

private theorem and_31 (n : Nat) : n &&& 0x1F = n % 32 := Nat.and_two_pow_sub_one_eq_mod n 5

private theorem and_15 (n : Nat) : n &&& 0x0F = n % 16 := Nat.and_two_pow_sub_one_eq_mod n 4

private theorem and_7 (n : Nat) : n &&& 0x07 = n % 8 := Nat.and_two_pow_sub_one_eq_mod n 3

/-- A number that is a code point is the code point of its character. -/
theorem toNat_val_ofNat {n : Nat} (h : n.isValidChar) : (Char.ofNat n).val.toNat = n := by
  rw [Char.ofNat, dif_pos h]
  rfl

private theorem ofNat_eq {n : Nat} {b : UInt8} (h : n = b.toNat) : UInt8.ofNat n = b := by
  rw [h, UInt8.ofNat_toNat]

theorem encodeChar_two {a b : UInt8} (ha : 0xC2 ≤ a.toNat) (ha' : a.toNat < 0xE0)
    (hb : 0x80 ≤ b.toNat) (hb' : b.toNat ≤ 0xBF) :
    String.utf8EncodeChar (Char.ofNat (a.toNat % 32 * 64 + b.toNat % 64)) = [a, b] := by
  have hvalid : ((a.toNat % 32) * 64 + b.toNat % 64).isValidChar := Or.inl (by omega)
  simp only [String.utf8EncodeChar, toNat_val_ofNat hvalid]
  rw [if_neg (by omega), if_pos (by omega), ofNat_eq (b := a) (by omega),
    ofNat_eq (b := b) (by omega)]

theorem encodeChar_three {a b c : UInt8} (ha : 0xE0 ≤ a.toNat) (ha' : a.toNat < 0xF0)
    (hb : 0x80 ≤ b.toNat) (hb' : b.toNat ≤ 0xBF) (hc : 0x80 ≤ c.toNat) (hc' : c.toNat ≤ 0xBF)
    (hlow : a.toNat = 0xE0 → 0xA0 ≤ b.toNat) (hhigh : a.toNat = 0xED → b.toNat ≤ 0x9F) :
    String.utf8EncodeChar (Char.ofNat ((a.toNat % 16 * 64 + b.toNat % 64) * 64 + c.toNat % 64)) =
      [a, b, c] := by
  have hvalid : ((a.toNat % 16 * 64 + b.toNat % 64) * 64 + c.toNat % 64).isValidChar := by
    by_cases h : a.toNat ≤ 0xED
    · exact Or.inl (by omega)
    · exact Or.inr (by omega)
  simp only [String.utf8EncodeChar, toNat_val_ofNat hvalid]
  rw [if_neg (by omega), if_neg (by omega), if_pos (by omega), ofNat_eq (b := a) (by omega),
    ofNat_eq (b := b) (by omega), ofNat_eq (b := c) (by omega)]

theorem encodeChar_four {a b c d : UInt8} (ha : 0xF0 ≤ a.toNat) (ha' : a.toNat ≤ 0xF4)
    (hb : 0x80 ≤ b.toNat) (hb' : b.toNat ≤ 0xBF) (hc : 0x80 ≤ c.toNat) (hc' : c.toNat ≤ 0xBF)
    (hd : 0x80 ≤ d.toNat) (hd' : d.toNat ≤ 0xBF)
    (hlow : a.toNat = 0xF0 → 0x90 ≤ b.toNat) (hhigh : a.toNat = 0xF4 → b.toNat ≤ 0x8F) :
    String.utf8EncodeChar (Char.ofNat (((a.toNat % 8 * 64 + b.toNat % 64) * 64 +
      c.toNat % 64) * 64 + d.toNat % 64)) = [a, b, c, d] := by
  have hvalid : (((a.toNat % 8 * 64 + b.toNat % 64) * 64 + c.toNat % 64) * 64 +
      d.toNat % 64).isValidChar := Or.inr (by omega)
  simp only [String.utf8EncodeChar, toNat_val_ofNat hvalid]
  rw [if_neg (by omega), if_neg (by omega), if_neg (by omega), ofNat_eq (b := a) (by omega),
    ofNat_eq (b := b) (by omega), ofNat_eq (b := c) (by omega), ofNat_eq (b := d) (by omega)]

/-! ## First bytes -/

/-- The character under way after a first byte of two. -/
def startTwo (a : UInt8) : Partial := { seen := [a], code := a.toNat % 32, missing := 1 }

/-- The character under way after a first byte of three. -/
def startThree (a : UInt8) : Partial :=
  ⟨[a], a.toNat % 16, 2, if a.toNat = 0xE0 then 0xA0 else 0x80,
    if a.toNat = 0xED then 0x9F else 0xBF⟩

/-- The character under way after a first byte of four. -/
def startFour (a : UInt8) : Partial :=
  ⟨[a], a.toNat % 8, 3, if a.toNat = 0xF0 then 0x90 else 0x80,
    if a.toNat = 0xF4 then 0x8F else 0xBF⟩

theorem lead_one {a : UInt8} (ha : a.toNat < 0x80) :
    lead a = .inl (.char (Char.ofNat a.toNat)) := by
  simp only [lead, UInt8.lt_iff_toNat_lt, UInt8.reduceToNat]
  rw [if_pos ha]

theorem lead_two {a : UInt8} (ha : 0xC2 ≤ a.toNat) (ha' : a.toNat < 0xE0) :
    lead a = .inr (startTwo a) := by
  simp only [lead, UInt8.lt_iff_toNat_lt, UInt8.reduceToNat, and_31]
  rw [if_neg (by omega), if_neg (by omega), if_pos ha', startTwo]

theorem lead_three {a : UInt8} (ha : 0xE0 ≤ a.toNat) (ha' : a.toNat < 0xF0) :
    lead a = .inr (startThree a) := by
  simp only [lead, UInt8.lt_iff_toNat_lt, beq_iff_eq, ← UInt8.toNat_inj, UInt8.reduceToNat,
    and_15, startThree]
  rw [if_neg (by omega), if_neg (by omega), if_neg (by omega)]
  grind

theorem lead_four {a : UInt8} (ha : 0xF0 ≤ a.toNat) (ha' : a.toNat ≤ 0xF4) :
    lead a = .inr (startFour a) := by
  simp only [lead, UInt8.lt_iff_toNat_lt, beq_iff_eq, ← UInt8.toNat_inj, UInt8.reduceToNat, and_7,
    startFour]
  rw [if_neg (by omega), if_neg (by omega), if_neg (by omega), if_neg (by omega),
    if_neg (by omega), if_neg (by omega)]
  grind

theorem lead_stray {a : UInt8} (ha : 0x80 ≤ a.toNat ∧ a.toNat < 0xC2 ∨ 0xF4 < a.toNat) :
    lead a = .inl (.stray [a]) := by
  simp only [lead, UInt8.lt_iff_toNat_lt, beq_iff_eq, ← UInt8.toNat_inj, UInt8.reduceToNat]
  rcases ha with ⟨ha, ha'⟩ | ha
  · rw [if_neg (by omega), if_pos ha']
  · rw [if_neg (by omega), if_neg (by omega), if_neg (by omega), if_neg (by omega),
      if_neg (by omega), if_neg (by omega), if_neg (by omega), if_neg (by omega),
      if_neg (by omega)]

/-- What a first byte can be. -/
theorem lead_cases (a : UInt8) :
    (a.toNat < 0x80 ∧ lead a = .inl (.char (Char.ofNat a.toNat))) ∨
      lead a = .inl (.stray [a]) ∨
      (0xC2 ≤ a.toNat ∧ a.toNat < 0xE0 ∧ lead a = .inr (startTwo a)) ∨
      (0xE0 ≤ a.toNat ∧ a.toNat < 0xF0 ∧ lead a = .inr (startThree a)) ∨
      (0xF0 ≤ a.toNat ∧ a.toNat ≤ 0xF4 ∧ lead a = .inr (startFour a)) := by
  by_cases hone : a.toNat < 0x80
  · exact .inl ⟨hone, lead_one hone⟩
  by_cases hstray : a.toNat < 0xC2 ∨ 0xF4 < a.toNat
  · exact .inr (.inl (lead_stray (by omega)))
  by_cases htwo : a.toNat < 0xE0
  · exact .inr (.inr (.inl ⟨by omega, htwo, lead_two (by omega) htwo⟩))
  by_cases hthree : a.toNat < 0xF0
  · exact .inr (.inr (.inr (.inl ⟨by omega, hthree, lead_three (by omega) hthree⟩)))
  · exact .inr (.inr (.inr (.inr ⟨by omega, by omega, lead_four (by omega) (by omega)⟩)))

/-- The second byte of three. -/
theorem inRange_startThree_iff {a : UInt8} {n : Nat} :
    (startThree a).low.toNat ≤ n ∧ n ≤ (startThree a).high.toNat ↔
      0x80 ≤ n ∧ n ≤ 0xBF ∧ (a.toNat = 0xE0 → 0xA0 ≤ n) ∧ (a.toNat = 0xED → n ≤ 0x9F) := by
  simp only [startThree]
  split <;> split <;> simp only [UInt8.reduceToNat] <;> omega

/-- The second byte of four. -/
theorem inRange_startFour_iff {a : UInt8} {n : Nat} :
    (startFour a).low.toNat ≤ n ∧ n ≤ (startFour a).high.toNat ↔
      0x80 ≤ n ∧ n ≤ 0xBF ∧ (a.toNat = 0xF0 → 0x90 ≤ n) ∧ (a.toNat = 0xF4 → n ≤ 0x8F) := by
  simp only [startFour]
  split <;> split <;> simp only [UInt8.reduceToNat] <;> omega

/-! ## The character under way -/

/-- A byte that can come next. -/
def Partial.InRange (p : Partial) (b : UInt8) : Prop :=
  p.low.toNat ≤ b.toNat ∧ b.toNat ≤ p.high.toNat

/-- The character under way after one more byte, if it still needs others. -/
def Partial.extend (p : Partial) (b : UInt8) : Partial :=
  { seen := p.seen ++ [b], code := p.code * 64 + b.toNat % 64, missing := p.missing - 1 }

theorem inRange_iff {p : Partial} {b : UInt8} :
    (p.low ≤ b && b ≤ p.high) = true ↔ p.InRange b := by
  simp only [Bool.and_eq_true, decide_eq_true_eq, UInt8.le_iff_toNat_le, Partial.InRange]

theorem inRange_startTwo {a b : UInt8} (hb : 0x80 ≤ b.toNat) (hb' : b.toNat ≤ 0xBF) :
    (startTwo a).InRange b := ⟨hb, hb'⟩

theorem inRange_extend {p : Partial} {a b : UInt8} (hb : 0x80 ≤ b.toNat) (hb' : b.toNat ≤ 0xBF) :
    (p.extend a).InRange b := ⟨hb, hb'⟩

/-- Whichever bytes complete the character under way, its encoding starts with the bytes seen. -/
inductive Partial.Sound : Partial → Prop where
  | last {p : Partial} (hmissing : p.missing ≤ 1)
      (hends : ∀ b, p.InRange b →
        String.utf8EncodeChar (Char.ofNat (p.code * 64 + b.toNat % 64)) = p.seen ++ [b]) : p.Sound
  | more {p : Partial} (hmissing : 1 < p.missing) (hgoes : ∀ b, p.InRange b → (p.extend b).Sound) :
      p.Sound

theorem sound_startTwo {a : UInt8} (ha : 0xC2 ≤ a.toNat) (ha' : a.toNat < 0xE0) :
    (startTwo a).Sound :=
  .last (Nat.le_refl 1) fun _ hb => encodeChar_two ha ha' hb.1 hb.2

theorem sound_startThree {a : UInt8} (ha : 0xE0 ≤ a.toNat) (ha' : a.toNat < 0xF0) :
    (startThree a).Sound := by
  refine .more (Nat.lt_add_one 1) fun b hb => .last (Nat.le_refl 1) fun c hc => ?_
  obtain ⟨hb, hb', hlow, hhigh⟩ := inRange_startThree_iff.mp hb
  exact encodeChar_three ha ha' hb hb' hc.1 hc.2 hlow hhigh

theorem sound_startFour {a : UInt8} (ha : 0xF0 ≤ a.toNat) (ha' : a.toNat ≤ 0xF4) :
    (startFour a).Sound := by
  refine .more (by simp [startFour]) fun b hb => .more (Nat.lt_add_one 1) fun c hc =>
    .last (Nat.le_refl 1) fun d hd => ?_
  obtain ⟨hb, hb', hlow, hhigh⟩ := inRange_startFour_iff.mp hb
  exact encodeChar_four ha ha' hb hb' hc.1 hc.2 hd.1 hd.2 hlow hhigh

/-- Every byte that starts a character of several bytes starts a sound one. -/
theorem sound_of_lead {a : UInt8} {p : Partial} (h : lead a = .inr p) : p.Sound := by
  rcases lead_cases a with ⟨-, hlead⟩ | hlead | ⟨ha, ha', hlead⟩ | ⟨ha, ha', hlead⟩ |
    ⟨ha, ha', hlead⟩ <;> rw [hlead] at h <;> cases h
  · exact sound_startTwo ha ha'
  · exact sound_startThree ha ha'
  · exact sound_startFour ha ha'

/-! ## No byte is lost -/

/-- The bytes of the character under way. -/
def seenOf (under : Option Partial) : Bytes := under.elim [] Partial.seen

theorem join_append (xs ys : List Piece) : join (xs ++ ys) = join xs ++ join ys :=
  List.flatMap_append

theorem encodeChar_one {b : UInt8} (hb : b.toNat < 0x80) :
    String.utf8EncodeChar (Char.ofNat b.toNat) = [b] := by
  have hvalid : b.toNat.isValidChar := Or.inl (by omega)
  simp only [String.utf8EncodeChar, toNat_val_ofNat hvalid]
  rw [if_pos (by omega), ofNat_eq rfl]

/-- A first byte is kept, in a piece or in the character it starts. -/
theorem join_feedFresh (b : UInt8) :
    join (feedFresh b).1 ++ seenOf (feedFresh b).2 = [b] := by
  rcases lead_cases b with ⟨hb, hlead⟩ | hlead | ⟨-, -, hlead⟩ | ⟨-, -, hlead⟩ | ⟨-, -, hlead⟩
  · simp [feedFresh, hlead, join, seenOf, Piece.bytes, encodeChar_one hb]
  · simp [feedFresh, hlead, join, seenOf, Piece.bytes]
  · simp [feedFresh, hlead, join, seenOf, startTwo]
  · simp [feedFresh, hlead, join, seenOf, startThree]
  · simp [feedFresh, hlead, join, seenOf, startFour]

/-- A byte in range that others follow goes on with the character under way. -/
theorem feed_more {p : Partial} {b : UInt8} (hmissing : 1 < p.missing) (hb : p.InRange b) :
    feed (some p) b = ([], some (p.extend b)) := by
  rw [feed, if_pos (inRange_iff.mpr hb), if_neg (by omega), and_63]
  rfl

/-- The last byte of the character under way completes it. -/
theorem feed_last {p : Partial} {b : UInt8} (hmissing : p.missing ≤ 1) (hb : p.InRange b) :
    feed (some p) b = ([.char (Char.ofNat (p.code * 64 + b.toNat % 64))], none) := by
  rw [feed, if_pos (inRange_iff.mpr hb), if_pos hmissing, and_63]

/-- One byte is kept, and a sound character under way stays sound. -/
theorem join_feed {under : Option Partial} (hsound : ∀ p, under = some p → p.Sound) (b : UInt8) :
    join (feed under b).1 ++ seenOf (feed under b).2 = seenOf under ++ [b] ∧
      ∀ p, (feed under b).2 = some p → p.Sound := by
  have hfresh : ∀ p, (feedFresh b).2 = some p → p.Sound := by
    intro p hp
    rw [feedFresh] at hp
    split at hp
    · cases hp
    next started hlead => cases hp; exact sound_of_lead hlead
  cases under with
  | none => exact ⟨by simpa [seenOf, feed] using join_feedFresh b, hfresh⟩
  | some p =>
    by_cases hb : p.InRange b
    · cases hsound p rfl with
      | last hmissing hends =>
        rw [feed_last hmissing hb]
        simp [join, Piece.bytes, seenOf, hends b hb]
      | more hmissing hgoes =>
        rw [feed_more hmissing hb]
        refine ⟨by simp [join, seenOf, Partial.extend], fun q hq => ?_⟩
        cases hq
        exact hgoes b hb
    · -- the character under way is cut short, and the byte starts afresh
      rw [feed, if_neg (mt inRange_iff.mp hb)]
      refine ⟨?_, hfresh⟩
      show p.seen ++ join (feedFresh b).1 ++ seenOf (feedFresh b).2 = p.seen ++ [b]
      rw [List.append_assoc, join_feedFresh]

theorem join_piecesFrom {under : Option Partial} (hsound : ∀ p, under = some p → p.Sound)
    (bytes : Bytes) : join (piecesFrom under bytes) = seenOf under ++ bytes := by
  induction bytes generalizing under with
  | nil => cases under <;> simp [piecesFrom, join, seenOf, Piece.bytes]
  | cons b rest ih =>
    obtain ⟨hkept, hnext⟩ := join_feed hsound b
    rw [piecesFrom, join_append, ih hnext, ← List.append_assoc, hkept]
    simp

/-- **Nothing is lost**: the pieces of a byte sequence, put together again, are that sequence. -/
theorem join_pieces (bytes : Bytes) : join (pieces bytes) = bytes := by
  have hfresh : ∀ p, (none : Option Partial) = some p → p.Sound := nofun
  simpa [pieces, seenOf] using join_piecesFrom hfresh bytes

/-! ## Texts and their encodings -/

theorem mapM_char?_eq_some_iff {ps : List Piece} {cs : List Char} :
    ps.mapM Piece.char? = some cs ↔ ps = cs.map .char := by
  induction ps generalizing cs with
  | nil => cases cs <;> simp
  | cons p ps ih =>
    cases p with
    | stray bytes => cases cs <;> simp [Piece.char?]
    | char c =>
      simp only [List.mapM_cons, Piece.char?, Option.bind_eq_bind, Option.bind_some,
        Option.pure_def, Option.bind_eq_some_iff, ih, Option.some.injEq]
      constructor
      · rintro ⟨rest, rfl, rfl⟩
        rfl
      · intro h
        obtain ⟨c', rest, rfl, hc, rfl⟩ := List.map_eq_cons_iff.mp h.symm
        cases hc
        exact ⟨rest, rfl, rfl⟩

theorem join_map_char (cs : List Char) :
    join (cs.map .char) = cs.flatMap String.utf8EncodeChar := by
  rw [join, List.flatMap_map]
  rfl

/-- A byte sequence that is text is the encoding of that text. -/
theorem encode_of_decode? {bytes : Bytes} {text : String} (h : decode? bytes = some text) :
    encode text = bytes := by
  obtain ⟨cs, hcs, rfl⟩ := Option.map_eq_some_iff.mp h
  rw [mapM_char?_eq_some_iff] at hcs
  rw [encode, String.toList_ofList, ← join_map_char, ← hcs, join_pieces]

/-! ## Reading one character -/

theorem piecesFrom_of_feed {under next : Option Partial} {b : UInt8} {ps : List Piece}
    (h : feed under b = (ps, next)) (rest : Bytes) :
    piecesFrom under (b :: rest) = ps ++ piecesFrom next rest := by
  cases under <;> simp [piecesFrom, h]

private theorem toNat_ofNat_lt {n : Nat} (h : n < 256) : (UInt8.ofNat n).toNat = n := by
  rw [UInt8.toNat_ofNat', Nat.mod_eq_of_lt h]

theorem piecesFrom_one {a : UInt8} (ha : a.toNat < 0x80) (rest : Bytes) :
    piecesFrom none (a :: rest) = .char (Char.ofNat a.toNat) :: piecesFrom none rest := by
  rw [piecesFrom_of_feed (by rw [feed, feedFresh, lead_one ha]), List.singleton_append]

/-- The first byte of several starts a character. -/
theorem piecesFrom_lead {a : UInt8} {p : Partial} (h : lead a = .inr p) (rest : Bytes) :
    piecesFrom none (a :: rest) = piecesFrom (some p) rest := by
  rw [piecesFrom_of_feed (by rw [feed, feedFresh, h]), List.nil_append]

/-- A byte in range that others follow goes on with it. -/
theorem piecesFrom_more {p : Partial} {b : UInt8} (hmissing : 1 < p.missing) (hb : p.InRange b)
    (rest : Bytes) : piecesFrom (some p) (b :: rest) = piecesFrom (some (p.extend b)) rest := by
  rw [piecesFrom_of_feed (feed_more hmissing hb), List.nil_append]

/-- The last byte completes it. -/
theorem piecesFrom_last {p : Partial} {b : UInt8} (hmissing : p.missing ≤ 1) (hb : p.InRange b)
    (rest : Bytes) : piecesFrom (some p) (b :: rest) =
      .char (Char.ofNat (p.code * 64 + b.toNat % 64)) :: piecesFrom none rest := by
  rw [piecesFrom_of_feed (feed_last hmissing hb), List.singleton_append]

theorem piecesFrom_two {a b : UInt8} (ha : 0xC2 ≤ a.toNat) (ha' : a.toNat < 0xE0)
    (hb : 0x80 ≤ b.toNat) (hb' : b.toNat ≤ 0xBF) (rest : Bytes) :
    piecesFrom none (a :: b :: rest) =
      .char (Char.ofNat (a.toNat % 32 * 64 + b.toNat % 64)) :: piecesFrom none rest := by
  rw [piecesFrom_lead (lead_two ha ha'), piecesFrom_last (Nat.le_refl 1) (inRange_startTwo hb hb')]
  rfl

theorem piecesFrom_three {a b c : UInt8} (ha : 0xE0 ≤ a.toNat) (ha' : a.toNat < 0xF0)
    (hb : 0x80 ≤ b.toNat) (hb' : b.toNat ≤ 0xBF) (hc : 0x80 ≤ c.toNat) (hc' : c.toNat ≤ 0xBF)
    (hlow : a.toNat = 0xE0 → 0xA0 ≤ b.toNat) (hhigh : a.toNat = 0xED → b.toNat ≤ 0x9F)
    (rest : Bytes) :
    piecesFrom none (a :: b :: c :: rest) =
      .char (Char.ofNat ((a.toNat % 16 * 64 + b.toNat % 64) * 64 + c.toNat % 64)) ::
        piecesFrom none rest := by
  rw [piecesFrom_lead (lead_three ha ha'),
    piecesFrom_more (Nat.lt_add_one 1) (inRange_startThree_iff.mpr ⟨hb, hb', hlow, hhigh⟩),
    piecesFrom_last (Nat.le_refl 1) (inRange_extend hc hc')]
  rfl

theorem piecesFrom_four {a b c d : UInt8} (ha : 0xF0 ≤ a.toNat) (ha' : a.toNat ≤ 0xF4)
    (hb : 0x80 ≤ b.toNat) (hb' : b.toNat ≤ 0xBF) (hc : 0x80 ≤ c.toNat) (hc' : c.toNat ≤ 0xBF)
    (hd : 0x80 ≤ d.toNat) (hd' : d.toNat ≤ 0xBF)
    (hlow : a.toNat = 0xF0 → 0x90 ≤ b.toNat) (hhigh : a.toNat = 0xF4 → b.toNat ≤ 0x8F)
    (rest : Bytes) :
    piecesFrom none (a :: b :: c :: d :: rest) =
      .char (Char.ofNat (((a.toNat % 8 * 64 + b.toNat % 64) * 64 + c.toNat % 64) * 64 +
        d.toNat % 64)) :: piecesFrom none rest := by
  rw [piecesFrom_lead (lead_four ha ha'),
    piecesFrom_more (by simp [startFour]) (inRange_startFour_iff.mpr ⟨hb, hb', hlow, hhigh⟩),
    piecesFrom_more (Nat.lt_add_one 1) (inRange_extend hc hc'),
    piecesFrom_last (Nat.le_refl 1) (inRange_extend hd hd')]
  rfl

/-- A character is read back from the start of a byte sequence. -/
theorem piecesFrom_encodeChar (c : Char) (rest : Bytes) :
    piecesFrom none (String.utf8EncodeChar c ++ rest) = .char c :: piecesFrom none rest := by
  have hvalid : c.val.toNat < 0xD800 ∨ 0xDFFF < c.val.toNat ∧ c.val.toNat < 0x110000 := c.valid
  have hchar : ∀ n, n = c.val.toNat → Char.ofNat n = c := fun n hn => hn ▸ Char.ofNat_toNat c
  simp only [String.utf8EncodeChar]
  generalize c.val.toNat = v at hvalid hchar
  have hlast : (UInt8.ofNat (v % 64 + 128)).toNat = v % 64 + 128 := toNat_ofNat_lt (by omega)
  have hmid : (UInt8.ofNat (v / 64 % 64 + 128)).toNat = v / 64 % 64 + 128 :=
    toNat_ofNat_lt (by omega)
  have hup : (UInt8.ofNat (v / 4096 % 64 + 128)).toNat = v / 4096 % 64 + 128 :=
    toNat_ofNat_lt (by omega)
  split
  · next h =>
    have hfirst : (UInt8.ofNat v).toNat = v := toNat_ofNat_lt (by omega)
    rw [List.singleton_append, piecesFrom_one (by omega), hchar _ hfirst]
  split
  · next h1 h =>
    have hfirst : (UInt8.ofNat (v / 64 % 32 + 192)).toNat = v / 64 + 192 := by
      rw [toNat_ofNat_lt (by omega)]
      omega
    simp only [List.cons_append, List.nil_append]
    rw [piecesFrom_two (by omega) (by omega) (by omega) (by omega), hchar _ (by omega)]
  split
  · next h1 h2 h =>
    have hfirst : (UInt8.ofNat (v / 4096 % 16 + 224)).toNat = v / 4096 + 224 := by
      rw [toNat_ofNat_lt (by omega)]
      omega
    simp only [List.cons_append, List.nil_append]
    rw [piecesFrom_three (by omega) (by omega) (by omega) (by omega) (by omega) (by omega)
      (by omega) (by omega), hchar _ (by omega)]
  · next h1 h2 h =>
    have hfirst : (UInt8.ofNat (v / 262144 % 8 + 240)).toNat = v / 262144 + 240 := by
      rw [toNat_ofNat_lt (by omega)]
      omega
    simp only [List.cons_append, List.nil_append]
    rw [piecesFrom_four (by omega) (by omega) (by omega) (by omega) (by omega) (by omega)
      (by omega) (by omega) (by omega) (by omega), hchar _ (by omega)]

theorem encode_append (a b : String) : encode (a ++ b) = encode a ++ encode b := by
  rw [encode, encode, encode, String.toList_append, List.flatMap_append]

/-- A text has as many bytes as characters at least. -/
theorem length_le_length_encode (s : String) : s.length ≤ (encode s).length := by
  rw [encode, ← String.length_toList]
  induction s.toList with
  | nil => exact Nat.le_refl 0
  | cons c rest ih =>
    have hpos := c.utf8Size_pos
    rw [List.flatMap_cons, List.length_append, String.length_utf8EncodeChar, List.length_cons]
    omega

/-- In the encoding of a character of several bytes all bytes are large. -/
theorem toNat_of_mem_encodeChar {b : UInt8} {c : Char} (hb : b.toNat < 0x80)
    (h : b ∈ String.utf8EncodeChar c) : c.val.toNat = b.toNat := by
  have hvalid : c.val.toNat < 0xD800 ∨ 0xDFFF < c.val.toNat ∧ c.val.toNat < 0x110000 := c.valid
  simp only [String.utf8EncodeChar] at h
  generalize c.val.toNat = v at h hvalid
  split at h
  · rw [List.mem_singleton.mp h, UInt8.toNat_ofNat']
    omega
  · split at h
    · simp only [List.mem_cons, List.not_mem_nil, or_false] at h
      rcases h with rfl | rfl <;> rw [UInt8.toNat_ofNat'] at hb <;> omega
    · split at h
      · simp only [List.mem_cons, List.not_mem_nil, or_false] at h
        rcases h with rfl | rfl | rfl <;> rw [UInt8.toNat_ofNat'] at hb <;> omega
      · simp only [List.mem_cons, List.not_mem_nil, or_false] at h
        rcases h with rfl | rfl | rfl | rfl <;> rw [UInt8.toNat_ofNat'] at hb <;> omega

/-- A small byte in the encoding of a text is a character of the text. -/
theorem mem_of_mem_encode {b : UInt8} {text : String} (hb : b.toNat < 0x80)
    (h : b ∈ encode text) : Char.ofNat b.toNat ∈ text.toList := by
  obtain ⟨c, hc, hmem⟩ := List.mem_flatMap.mp h
  rw [← toNat_of_mem_encodeChar hb hmem, show Char.ofNat c.val.toNat = c from Char.ofNat_toNat c]
  exact hc

/-- **A text is read back from its encoding.** -/
theorem decode?_encode (text : String) : decode? (encode text) = some text := by
  have hpieces : ∀ cs : List Char, piecesFrom none (cs.flatMap String.utf8EncodeChar) =
      cs.map .char := by
    intro cs
    induction cs with
    | nil => rfl
    | cons c cs ih => rw [List.flatMap_cons, piecesFrom_encodeChar, ih, List.map_cons]
  rw [decode?, encode, pieces, hpieces, mapM_char?_eq_some_iff.mpr rfl, Option.map_some,
    String.ofList_toList]

/-- A byte sequence is a given text exactly when it is the encoding of that text. -/
theorem decode?_eq_some_iff {bytes : Bytes} {text : String} :
    decode? bytes = some text ↔ bytes = encode text :=
  ⟨fun h => (encode_of_decode? h).symm, fun h => h ▸ decode?_encode text⟩

theorem encode_injective : Function.Injective encode := by
  intro text text' h
  have hdecode := decode?_encode text
  rw [h, decode?_encode] at hdecode
  exact (Option.some.inj hdecode).symm

end ConsoleSweep.Utf8
