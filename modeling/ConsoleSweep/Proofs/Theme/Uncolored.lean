import ConsoleSweep.Proofs.Text.Utf8
import ConsoleSweep.Report

/-!
# Taking the colours out again

A colour code is the escape character, `[`, digits and `m`. `uncolored` deletes all of them from a
byte sequence. A text that holds no escape character has none, and painting such a text puts one
before and one after it, so what is deleted from the report is what painting has added: every part
of the report, shown with colours, `Decolors` to what is shown without (`alike_decolors`).

Deleting does not simply go part by part, as a code might begin in one part and end in the next.
`Decolors` therefore speaks of a part with whatever follows it, and that composes.
-/

namespace ConsoleSweep.Terminal

/-- The byte that starts a code. -/
def escape : UInt8 := 0x1B

/-- Whether a byte is a decimal digit. -/
def isDigit (b : UInt8) : Bool := 0x30 ≤ b && b ≤ 0x39

/-- What follows the digits and the `m` of a code. -/
def afterDigits? (bytes : Bytes) : Option Bytes :=
  match bytes.takeWhile isDigit, bytes.dropWhile isDigit with
  | _ :: _, 0x6D :: after => some after
  | _, _ => none

/-- What follows the code that bytes start with, if they start with one. -/
def afterCode? : Bytes → Option Bytes
  | 0x1B :: 0x5B :: rest => afterDigits? rest
  | _ => none

theorem length_lt_of_afterCode? {bytes after : Bytes} (h : afterCode? bytes = some after) :
    after.length < bytes.length := by
  unfold afterCode? at h
  split at h
  next rest =>
    unfold afterDigits? at h
    split at h
    next hdigits hafter =>
      cases h
      have hlength := (List.dropWhile_suffix isDigit (l := rest)).length_le
      rw [hafter] at hlength
      simp only [List.length_cons] at hlength ⊢
      omega
    next => cases h
  next => cases h

/-- A byte sequence without its codes. -/
def uncolored (bytes : Bytes) : Bytes :=
  match _ : afterCode? bytes with
  | some after => uncolored after
  | none =>
    match bytes with
    | [] => []
    | b :: rest => b :: uncolored rest
termination_by bytes.length
decreasing_by
  · exact length_lt_of_afterCode? ‹_›
  · exact Nat.lt_succ_self _

theorem uncolored_nil : uncolored [] = [] := by
  rw [uncolored]
  rfl

theorem uncolored_of_afterCode? {bytes after : Bytes} (h : afterCode? bytes = some after) :
    uncolored bytes = uncolored after := by
  rw [uncolored]
  split
  next other hother =>
    rw [h] at hother
    cases hother
    rfl
  next hnone =>
    rw [h] at hnone
    cases hnone

/-- A byte that starts no code stays. -/
theorem uncolored_cons {b : UInt8} (hb : b ≠ escape) (rest : Bytes) :
    uncolored (b :: rest) = b :: uncolored rest := by
  have hnone : afterCode? (b :: rest) = none := by
    unfold afterCode?
    split
    next heq =>
      cases heq
      exact absurd rfl hb
    next => rfl
  rw [uncolored]
  split
  next after hafter =>
    rw [hnone] at hafter
    cases hafter
  next => rfl

/-! ## Deleting part by part -/

/-- Whatever follows, deleting codes from the first bytes leaves the second ones. -/
def Decolors (on off : Bytes) : Prop :=
  ∀ rest, uncolored (on ++ rest) = off ++ uncolored rest

namespace Decolors

variable {on off on' off' : Bytes}

theorem uncolored_eq (h : Decolors on off) : uncolored on = off := by
  have hall := h []
  rwa [List.append_nil, uncolored_nil, List.append_nil] at hall

theorem append (h : Decolors on off) (h' : Decolors on' off') :
    Decolors (on ++ on') (off ++ off') := by
  intro rest
  rw [List.append_assoc, h, h', List.append_assoc]

/-- Bytes without an escape stay as they are. -/
theorem of_escape_notMem {bytes : Bytes} (h : escape ∉ bytes) : Decolors bytes bytes := by
  intro rest
  induction bytes with
  | nil => rfl
  | cons b bytes ih =>
    obtain ⟨hb, hbytes⟩ := List.ne_and_not_mem_of_not_mem_cons h
    rw [List.cons_append, uncolored_cons hb.symm, ih hbytes, List.cons_append]

/-- A code is deleted. -/
theorem code {digits : Bytes} (hne : digits ≠ []) (hdigits : ∀ d ∈ digits, isDigit d) :
    Decolors ([0x1B, 0x5B] ++ digits ++ [0x6D]) [] := by
  intro rest
  have htake : (digits ++ 0x6D :: rest).takeWhile isDigit = digits := by
    rw [List.takeWhile_append_of_pos hdigits, List.takeWhile_cons_of_neg (by decide +kernel),
      List.append_nil]
  have hdrop : (digits ++ 0x6D :: rest).dropWhile isDigit = 0x6D :: rest := by
    rw [List.dropWhile_append_of_pos hdigits, List.dropWhile_cons_of_neg (by decide +kernel)]
  have hafter : afterDigits? (digits ++ 0x6D :: rest) = some rest := by
    unfold afterDigits?
    rw [htake, hdrop]
    obtain ⟨d, ds, rfl⟩ := List.exists_cons_of_ne_nil hne
    rfl
  have hcode : afterCode? (0x1B :: 0x5B :: (digits ++ 0x6D :: rest)) = some rest := hafter
  have hshape : [0x1B, 0x5B] ++ digits ++ [0x6D] ++ rest =
      0x1B :: 0x5B :: (digits ++ 0x6D :: rest) := by simp
  rw [hshape, uncolored_of_afterCode? hcode, List.nil_append]

end Decolors

/-! ## Texts without an escape -/

/-- A text without the escape character. -/
def Plain (text : String) : Prop := '\x1b' ∉ text.toList

instance (text : String) : Decidable (Plain text) :=
  inferInstanceAs (Decidable ('\x1b' ∉ text.toList))

@[simp] theorem plain_append {text text' : String} :
    Plain (text ++ text') ↔ Plain text ∧ Plain text' := by
  unfold Plain
  rw [String.toList_append, List.mem_append, not_or]

theorem escape_notMem_encode {text : String} (h : Plain text) : escape ∉ Utf8.encode text := by
  intro hmem
  exact h (Utf8.mem_of_mem_encode (by decide +kernel) hmem)

/-- Numbers are shown by digits. -/
theorem isDigit_of_mem_encode_toString {n : Nat} {b : UInt8}
    (h : b ∈ Utf8.encode (toString n)) : isDigit b := by
  obtain ⟨c, hc, hb⟩ := List.mem_flatMap.mp h
  rw [show toString n = n.repr from rfl, Nat.toList_repr] at hc
  have hdigit := Nat.isDigit_of_mem_toDigits (by decide +kernel) (by decide +kernel) hc
  simp only [Char.isDigit, Bool.and_eq_true, decide_eq_true_eq, ge_iff_le, UInt32.le_iff_toNat_le]
    at hdigit
  obtain ⟨hlow, hhigh⟩ : 48 ≤ c.val.toNat ∧ c.val.toNat ≤ 57 := hdigit
  rw [String.utf8EncodeChar, if_pos (by omega), List.mem_singleton] at hb
  have hvalue : b.toNat = c.val.toNat := by
    rw [hb, UInt8.toNat_ofNat']
    omega
  simp only [isDigit, Bool.and_eq_true, decide_eq_true_eq, UInt8.le_iff_toNat_le]
  exact ⟨hvalue ▸ hlow, hvalue ▸ hhigh⟩

@[simp] theorem plain_toString (n : Nat) : Plain (toString n) := by
  intro hc
  rw [show toString n = n.repr from rfl, Nat.toList_repr] at hc
  have hdigit := Nat.isDigit_of_mem_toDigits (by decide +kernel) (by decide +kernel) hc
  exact absurd hdigit (by decide +kernel)

/-- A path is shown with an escape character only if it holds one. -/
theorem plain_display {path : Path} (h : escape ∉ path.bytes) : Plain path.display := by
  intro hc
  rw [Path.display, Utf8.lossy, String.toList_ofList] at hc
  obtain ⟨piece, hpiece, heq⟩ := List.mem_map.mp hc
  cases piece with
  | stray bytes =>
    have hreplaced : Utf8.replacement ≠ '\x1b' := by decide
    exact absurd heq hreplaced
  | char c =>
    have hc' : c = '\x1b' := heq
    subst hc'
    refine h ?_
    rw [← Utf8.join_pieces path.bytes]
    exact List.mem_flatMap.mpr ⟨_, hpiece, by decide⟩

/-! ## Painted texts -/

/-- One text is the other with codes in it. -/
def Shows (on off : String) : Prop := Decolors (Utf8.encode on) (Utf8.encode off)

namespace Shows

variable {on off on' off' text : String}

theorem of_plain (h : Plain text) : Shows text text :=
  Decolors.of_escape_notMem (escape_notMem_encode h)

theorem append (h : Shows on off) (h' : Shows on' off') : Shows (on ++ on') (off ++ off') := by
  unfold Shows
  rw [Utf8.encode_append, Utf8.encode_append]
  exact Decolors.append h h'

theorem append_plain (h : Shows on off) (htext : Plain text) : Shows (on ++ text) (off ++ text) :=
  h.append (of_plain htext)

theorem join {α : Type} {f g : α → String} {items : List α}
    (h : ∀ item ∈ items, Shows (f item) (g item)) :
    Shows (String.join (items.map f)) (String.join (items.map g)) := by
  induction items with
  | nil =>
    have hnil : Shows "" "" := of_plain (by decide +kernel)
    exact hnil
  | cons item rest ih =>
    obtain ⟨hitem, hrest⟩ := List.forall_mem_cons.mp h
    rw [List.map_cons, List.map_cons, String.join_cons, String.join_cons]
    exact hitem.append (ih hrest)

/-- Switching a colour on or off shows as nothing. -/
theorem code (n : Nat) : Shows ("\x1b[" ++ toString n ++ "m") "" := by
  unfold Shows
  rw [Utf8.encode_append, Utf8.encode_append]
  refine .code (fun hnil => ?_) fun d => isDigit_of_mem_encode_toString
  have hempty : toString n = "" := Utf8.encode_injective hnil
  exact Nat.repr_ne_empty hempty

/-- A text in a colour is the text with a code before it and one after it. -/
theorem paint_color (c : Color) (h : Plain text) : Shows (c.paint text) text := by
  have hpainted := ((code c.terminal.code).append (of_plain h)).append (code 39)
  rw [String.empty_append, String.append_empty] at hpainted
  exact hpainted

variable (theme theme' : Theme)

/-- Colours, whatever they are, show as nothing. -/
theorem paint (h : Plain text) (entry : Entry) :
    Shows (Palette.paint ⟨theme, true⟩ text entry) (Palette.paint ⟨theme', false⟩ text entry) := by
  simp only [Palette.paint, if_true, Bool.false_eq_true, if_false]
  cases theme entry with
  | none => exact of_plain h
  | some color => exact paint_color color h

theorem line (h : Plain text) (entry : Entry) :
    Shows (Palette.line ⟨theme, true⟩ text entry) (Palette.line ⟨theme', false⟩ text entry) :=
  (paint theme theme' h entry).append_plain (by decide +kernel)

end Shows

end ConsoleSweep.Terminal

namespace ConsoleSweep.Report

open Terminal

/-! ## The report -/

/-- With two palettes, whatever can be reported about results is shown with bytes that are
related. -/
structure Alike (rel : Bytes → Bytes → Prop) (p p' : Palette) (results : List ScanResult) :
    Prop where
  file : ∀ r ∈ results, ∀ dryRun,
    rel (Utf8.encode (Report.file p r dryRun)) (Utf8.encode (Report.file p' r dryRun))
  scanSummary : ∀ summary,
    rel (Utf8.encode (Report.scanSummary p summary)) (Utf8.encode (Report.scanSummary p' summary))
  nothingFound :
    rel (Utf8.encode (Report.nothingFound p)) (Utf8.encode (Report.nothingFound p'))
  cancelled : rel (Utf8.encode (Report.cancelled p)) (Utf8.encode (Report.cancelled p'))
  removed : ∀ r ∈ results, ∀ count,
    rel (Utf8.encode (Report.removed p r.path count)) (Utf8.encode (Report.removed p' r.path count))
  finalSummary : ∀ summary dryRun, rel (Utf8.encode (Report.finalSummary p summary dryRun))
    (Utf8.encode (Report.finalSummary p' summary dryRun))
  prompt : ∀ summary,
    rel (Utf8.encode (Report.prompt p summary)) (Utf8.encode (Report.prompt p' summary))

/-- The part of the totals of a run that has no colour. -/
def totals (s : Summary) (dryRun : Bool) : String :=
  "Files processed: " ++ toString s.scanned ++ "\n" ++
  "Files containing console statements: " ++ toString s.withMatches ++ "\n" ++
  "Total console statements " ++ (if dryRun then "that would be " else "") ++ "removed: "

theorem plain_totals (s : Summary) (dryRun : Bool) : Plain (totals s dryRun) := by
  unfold totals
  cases dryRun with
  | true =>
    rw [if_pos rfl]
    simp only [plain_append, plain_toString, and_true]
    decide +kernel
  | false =>
    rw [if_neg Bool.false_ne_true]
    simp only [plain_append, plain_toString, and_true]
    decide +kernel

theorem finalSummary_eq (p : Palette) (s : Summary) (dryRun : Bool) :
    Report.finalSummary p s dryRun = "\n" ++ p.line "Summary:" .header ++ totals s dryRun ++
      p.paint (toString s.removed) .matchCount ++ "\n" ++
      if dryRun then "\n" ++ p.line "This was a dry run. No files were modified." .info
      else "" := by
  unfold finalSummary totals
  simp only [← String.append_assoc]

/-- Without colours, all themes show the same. -/
theorem alike_eq (theme theme' : Theme) (results : List ScanResult) :
    Alike Eq ⟨theme, false⟩ ⟨theme', false⟩ results where
  file := fun _ _ _ => rfl
  scanSummary := fun _ => rfl
  nothingFound := rfl
  cancelled := rfl
  removed := fun _ _ _ => rfl
  finalSummary := fun _ _ => rfl
  prompt := fun _ => rfl

/-- **Colours are all that is deleted from the report**, if neither paths nor statements hold escape
characters. -/
theorem alike_decolors (theme theme' : Theme) {results : List ScanResult}
    (hpaths : ∀ r ∈ results, escape ∉ r.path.bytes)
    (hstatements : ∀ r ∈ results, ∀ statement ∈ r.statements, Plain statement) :
    Alike Decolors ⟨theme, true⟩ ⟨theme', false⟩ results where
  file := by
    intro r hr dryRun
    have hname := Shows.paint theme theme' (plain_display (hpaths r hr)) .fileName
    cases dryRun with
    | true =>
      have hitem : ∀ statement ∈ r.statements, Shows
          ("  Would remove: " ++ Palette.paint ⟨theme, true⟩ statement .wouldRemove ++ "\n")
          ("  Would remove: " ++ Palette.paint ⟨theme', false⟩ statement .wouldRemove ++ "\n") := by
        intro statement hstatement
        have hlabel : Shows "  Would remove: " "  Would remove: " := .of_plain (by decide +kernel)
        have hpainted := Shows.paint theme theme' (hstatements r hr statement hstatement)
          .wouldRemove
        exact (hlabel.append hpainted).append_plain (by decide +kernel)
      have hlabel : Shows "\nFile: " "\nFile: " := .of_plain (by decide +kernel)
      have htitle : Shows
          ("\nFile: " ++ Palette.paint ⟨theme, true⟩ r.path.display .fileName ++ "\n")
          ("\nFile: " ++ Palette.paint ⟨theme', false⟩ r.path.display .fileName ++ "\n") :=
        (hlabel.append hname).append_plain (by decide +kernel)
      exact htitle.append (.join hitem)
    | false =>
      have hcolon : Shows ": " ": " := .of_plain (by decide +kernel)
      have hcount := Shows.paint theme theme' (plain_toString r.count) .matchCount
      exact ((hname.append hcolon).append hcount).append_plain (by decide +kernel)
  scanSummary := by
    intro summary
    refine Shows.append (.of_plain (by decide +kernel)) (.line theme theme' ?_ _)
    simp only [plain_append, plain_toString, and_true]
    decide +kernel
  nothingFound := Shows.line theme theme' (by decide +kernel) _
  cancelled := Shows.line theme theme' (by decide +kernel) _
  removed := by
    intro r hr count
    refine Shows.line theme theme' ?_ _
    simp only [plain_append, plain_toString, plain_display (hpaths r hr), and_true]
    decide +kernel
  finalSummary := by
    intro summary dryRun
    rw [finalSummary_eq, finalSummary_eq]
    have hfeed : Shows "\n" "\n" := .of_plain (by decide +kernel)
    have htitle : Shows (Palette.line ⟨theme, true⟩ "Summary:" .header)
        (Palette.line ⟨theme', false⟩ "Summary:" .header) :=
      .line theme theme' (by decide +kernel) .header
    have htotals := (hfeed.append htitle).append_plain (plain_totals summary dryRun)
    have htotal := Shows.paint theme theme' (plain_toString summary.removed) .matchCount
    refine ((htotals.append htotal).append hfeed).append ?_
    cases dryRun with
    | true => exact hfeed.append (.line theme theme' (by decide +kernel) .info)
    | false =>
      have hnone : Shows "" "" := .of_plain (by decide)
      exact hnone
  prompt := by
    intro summary
    refine Shows.paint theme theme' ?_ _
    simp only [question, plain_append, plain_toString, and_true]
    decide +kernel

end ConsoleSweep.Report
