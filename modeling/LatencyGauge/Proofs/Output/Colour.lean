/-
Colour and no colour. A terminal takes a text as characters and escape sequences. In a coloured
report the characters alone are the report without colour, and the sequences come in pairs, one that
opens a style and the reset that ends it: no text in a fragment has an escape, names of loops and of
the clock are the only ones that come from elsewhere, and without escapes no sequence begins or ends
anywhere but where a style does.
-/
import LatencyGauge.Output.Styled
import LatencyGauge.Proofs.Output.RoundTrip

namespace LatencyGauge

open Number

/-! ## Escape sequences -/

/-- What a terminal finds in a text: a character, or a sequence with its codes. -/
inductive Glyph where
  | char (c : Char)
  | sequence (codes : List Char)
deriving DecidableEq, Repr

/-- A text as a terminal takes it. A sequence begins with an escape and a bracket and ends with the
next `m`; where there is none after them they are characters. The flag says that the text starts
inside a sequence. -/
def glyphs : Bool → List Char → List Glyph
  | _, [] => []
  | true, c :: r => glyphs (c != 'm') r
  | false, '\x1b' :: '[' :: r =>
    if 'm' ∈ r then .sequence (r.takeWhile (· != 'm')) :: glyphs true r
    else .char '\x1b' :: .char '[' :: glyphs false r
  | false, c :: r => .char c :: glyphs false r

/-- The character of a glyph. -/
def Glyph.char? : Glyph → Option Char
  | .char c => some c
  | .sequence _ => none

/-- The codes of a glyph. -/
def Glyph.codes? : Glyph → Option (List Char)
  | .char _ => none
  | .sequence codes => some codes

/-- A text without its sequences. -/
def stripped (text : String) : String :=
  String.ofList ((glyphs false text.toList).filterMap Glyph.char?)

/-- The sequences of a text, in order. -/
def sequences (text : String) : List (List Char) :=
  (glyphs false text.toList).filterMap Glyph.codes?

/-- The codes of the reset. -/
def resetCodes : List Char := ['0']

/-- Every sequence that opens a style is followed by a reset before another one opens a style, and
there are no other resets. -/
def Closed : List (List Char) → Prop
  | [] => True
  | [_] => False
  | opening :: closing :: rest => opening ≠ resetCodes ∧ closing = resetCodes ∧ Closed rest

/-! ## Texts without escapes -/

/-- Characters among which no sequence can begin. -/
def Unescaped (cs : List Char) : Prop := ∀ c ∈ cs, c ≠ '\x1b'

-- by name, since the characters are finitely many and it could go through all of them
instance (cs : List Char) : Decidable (Unescaped cs) := List.decidableBAll (· ≠ '\x1b') cs

theorem Unescaped.append {cs ds : List Char} (hcs : Unescaped cs) (hds : Unescaped ds) :
    Unescaped (cs ++ ds) := List.forall_mem_append.2 ⟨hcs, hds⟩

theorem glyphs_unescaped {cs : List Char} (h : Unescaped cs) (rest : List Char) :
    glyphs false (cs ++ rest) = cs.map .char ++ glyphs false rest := by
  induction cs with
  | nil => rfl
  | cons c cs ih =>
    obtain ⟨hc, hcs⟩ := List.forall_mem_cons.1 h
    have hfirst : glyphs false (c :: (cs ++ rest)) = .char c :: glyphs false (cs ++ rest) := by
      rw [glyphs.eq_def]
      split
      case h_1 heq => cases heq
      case h_2 hflag _ => cases hflag
      case h_3 heq => exact absurd (List.cons.inj heq).1 hc
      case h_4 heq =>
        obtain ⟨rfl, rfl⟩ := List.cons.inj heq
        rfl
    rw [List.cons_append, hfirst, ih hcs]
    rfl

/-- What is inside a sequence is passed over. -/
theorem glyphs_inside {codes : List Char} (h : 'm' ∉ codes) (rest : List Char) :
    glyphs true (codes ++ 'm' :: rest) = glyphs false rest := by
  induction codes with
  | nil => rfl
  | cons c codes ih =>
    have hc : c ≠ 'm' := fun heq => h (heq ▸ List.mem_cons_self)
    have hcodes : 'm' ∉ codes := fun hm => h (List.mem_cons_of_mem c hm)
    rw [List.cons_append, glyphs, bne_iff_ne.2 hc, ih hcodes]

theorem glyphs_sequence (codes : List Char) (h : 'm' ∉ codes) (rest : List Char) :
    glyphs false ('\x1b' :: '[' :: (codes ++ 'm' :: rest)) =
      .sequence codes :: glyphs false rest := by
  have hm : 'm' ∈ codes ++ 'm' :: rest := List.mem_append_right codes List.mem_cons_self
  have hne : ∀ c ∈ codes, (c != 'm') = true := fun c hc => bne_iff_ne.2 fun heq => h (heq ▸ hc)
  have hcodes : (codes ++ 'm' :: rest).takeWhile (· != 'm') = codes := by
    rw [List.takeWhile_append_of_pos hne, List.takeWhile_cons_of_neg (by decide), List.append_nil]
  rw [glyphs, if_pos hm, hcodes, glyphs_inside h]

/-! ## Fragments -/

theorem Style.codes_ne (s : Style) :
    'm' ∉ s.codes.toList ∧ s.codes.toList ≠ resetCodes := by
  cases s <;> decide

theorem reopened_unescaped {cs : List Char} (h : Unescaped cs) (opening : List Char) :
    reopened opening cs = cs := by
  induction cs with
  | nil => rfl
  | cons c cs ih =>
    obtain ⟨hc, hcs⟩ := List.forall_mem_cons.1 h
    rw [reopened.eq_def]
    split
    case h_1 heq => exact absurd (List.cons.inj heq).1 hc
    case h_2 heq =>
      obtain ⟨rfl, rfl⟩ := List.cons.inj heq
      rw [ih hcs]
    case h_3 heq => cases heq

/-- The glyphs of a fragment in colour. -/
def Fragment.glyphs (f : Fragment) : List Glyph :=
  match f.style with
  | some s => .sequence s.codes.toList :: (f.text.toList.map .char ++ [.sequence resetCodes])
  | none => f.text.toList.map .char

/-- The codes of the sequences of a fragment in colour. -/
def Fragment.codes (f : Fragment) : List (List Char) :=
  match f.style with
  | some s => [s.codes.toList, resetCodes]
  | none => []

theorem Fragment.glyphs_chars {f : Fragment} (h : Unescaped f.text.toList) (rest : List Char) :
    LatencyGauge.glyphs false (f.chars true ++ rest) =
      f.glyphs ++ LatencyGauge.glyphs false rest := by
  obtain ⟨style, text⟩ := f
  cases style with
  | none => exact glyphs_unescaped h rest
  | some s =>
    have hreset : LatencyGauge.glyphs false (reset ++ rest) =
        .sequence resetCodes :: LatencyGauge.glyphs false rest :=
      glyphs_sequence resetCodes (by decide) rest
    have hwrap : Fragment.chars true ⟨some s, text⟩ ++ rest =
        '\x1b' :: '[' :: (s.codes.toList ++ 'm' :: (text.toList ++ (reset ++ rest))) := by
      simp only [Fragment.chars, if_true, Style.wrap, Style.opening, reopened_unescaped h,
        List.cons_append, List.append_assoc, List.nil_append]
    rw [hwrap, glyphs_sequence _ s.codes_ne.1, glyphs_unescaped h, hreset]
    simp only [Fragment.glyphs, List.cons_append, List.append_assoc, List.nil_append]

theorem filterMap_char (cs : List Char) :
    (cs.map Glyph.char).filterMap Glyph.char? = cs ∧
      (cs.map Glyph.char).filterMap Glyph.codes? = [] := by
  induction cs with
  | nil => exact ⟨rfl, rfl⟩
  | cons c cs ih => exact ⟨congrArg (c :: ·) ih.1, ih.2⟩

/-- The characters among the glyphs of a fragment are its text, and the sequences are those of its
style. -/
theorem Fragment.filterMap_glyphs (f : Fragment) :
    f.glyphs.filterMap Glyph.char? = f.chars false ∧ f.glyphs.filterMap Glyph.codes? = f.codes := by
  obtain ⟨style, text⟩ := f
  obtain ⟨hchars, hcodes⟩ := filterMap_char text.toList
  cases style with
  | none => exact ⟨hchars, hcodes⟩
  | some s =>
    constructor
    · show (text.toList.map Glyph.char ++ [Glyph.sequence resetCodes]).filterMap Glyph.char? =
        text.toList
      rw [List.filterMap_append, hchars]
      exact List.append_nil _
    · show s.codes.toList :: (text.toList.map Glyph.char ++ [Glyph.sequence resetCodes]).filterMap
        Glyph.codes? = [s.codes.toList, resetCodes]
      rw [List.filterMap_append, hcodes]
      rfl

/-- Fragments without escapes. -/
def Legible (fs : List Fragment) : Prop := ∀ f ∈ fs, Unescaped f.text.toList

theorem glyphs_fragments {fs : List Fragment} (h : Legible fs) :
    glyphs false (fs.flatMap (Fragment.chars true)) = fs.flatMap Fragment.glyphs := by
  induction fs with
  | nil => rfl
  | cons f fs ih =>
    obtain ⟨hf, hfs⟩ := List.forall_mem_cons.1 h
    rw [List.flatMap_cons, List.flatMap_cons, f.glyphs_chars hf, ih hfs]

theorem filterMap_fragments (fs : List Fragment) :
    (fs.flatMap Fragment.glyphs).filterMap Glyph.char? = fs.flatMap (Fragment.chars false) ∧
      (fs.flatMap Fragment.glyphs).filterMap Glyph.codes? = fs.flatMap Fragment.codes := by
  induction fs with
  | nil => exact ⟨rfl, rfl⟩
  | cons f fs ih =>
    obtain ⟨hchars, hcodes⟩ := f.filterMap_glyphs
    simp only [List.flatMap_cons, List.filterMap_append, hchars, hcodes, ih.1, ih.2, and_self]

theorem closed_codes (fs : List Fragment) : Closed (fs.flatMap Fragment.codes) := by
  induction fs with
  | nil => trivial
  | cons f fs ih =>
    obtain ⟨style, text⟩ := f
    cases style with
    | none => exact ih
    | some s => exact ⟨s.codes_ne.2, rfl, ih⟩

/-- Fragments without escapes in colour, without the sequences, are the fragments without colour;
and the sequences are closed. -/
theorem render_stripped {fs : List Fragment} (h : Legible fs) :
    stripped (render true fs) = render false fs ∧ Closed (sequences (render true fs)) := by
  obtain ⟨hchars, hcodes⟩ := filterMap_fragments fs
  have hglyphs : glyphs false (render true fs).toList = fs.flatMap Fragment.glyphs := by
    rw [render, String.toList_ofList, glyphs_fragments h]
  constructor
  · rw [stripped, hglyphs, hchars, render]
  · rw [sequences, hglyphs, hcodes]
    exact closed_codes fs

/-! ## Numbers and texts -/

theorem unescaped_append (a b : String) :
    Unescaped (a ++ b).toList ↔ Unescaped a.toList ∧ Unescaped b.toList := by
  unfold Unescaped
  rw [String.toList_append, List.forall_mem_append]

theorem digitChar_ne_escape : ∀ d : Digit, d.char ≠ '\x1b' := by decide

theorem unescaped_digitChars (ds : List Digit) : Unescaped (digitChars ds) := by
  intro c hc
  obtain ⟨d, -, rfl⟩ := List.mem_map.1 hc
  exact digitChar_ne_escape d

theorem unescaped_nat (n : Nat) : Unescaped (toString n).toList := by
  intro c hc
  rw [Nat.toString_eq_repr, Nat.toList_repr] at hc
  rintro rfl
  exact absurd (Nat.isDigit_of_mem_toDigits (by decide) (by decide) hc) (by decide)

theorem unescaped_placed (places n : Nat) : Unescaped (placed places n) := by
  unfold placed
  dsimp only
  split
  · exact unescaped_digitChars _
  · apply (unescaped_digitChars _).append
    exact List.forall_mem_cons.2 ⟨by decide, unescaped_digitChars _⟩

theorem unescaped_fixed (places : Nat) (x : Float) (plus : Bool) :
    Unescaped (fixed places x plus).toList := by
  have hsign : Unescaped (if signBit x then ['-'] else if plus then ['+'] else []) := by
    split
    · decide
    · split <;> decide
  unfold fixed
  split
  · decide
  · rw [String.toList_ofList]
    apply hsign.append
    split
    · decide
    · exact unescaped_placed _ _

theorem unescaped_toString (text : String) :
    Unescaped (toString text).toList ↔ Unescaped text.toList := Iff.rfl

theorem Drift.message_unescaped (d : Drift) : Unescaped d.message.toList := by
  unfold Drift.message
  simp only [unescaped_append, unescaped_toString, unescaped_nat, unescaped_fixed, and_true]
  decide +kernel

theorem Caution.message_unescaped (c : Caution) : Unescaped c.message.toList := by
  unfold Caution.message
  cases c with
  | nothingAccepted => decide +kernel
  | budgetSpent completed target =>
    simp only [unescaped_append, unescaped_toString, unescaped_nat, and_true]
    decide +kernel
  | drift d => exact d.message_unescaped

/-! ## Reports -/

theorem legible_append {fs gs : List Fragment} :
    Legible (fs ++ gs) ↔ Legible fs ∧ Legible gs := List.forall_mem_append

theorem legible_flatMap {α : Type} {items : List α} {parts : α → List Fragment}
    (h : ∀ a ∈ items, Legible (parts a)) : Legible (items.flatMap parts) := by
  intro f hf
  obtain ⟨a, ha, hfa⟩ := List.mem_flatMap.1 hf
  exact h a ha f hfa

theorem Summary.fragments_legible (s : Summary) (cyclesPerNs : Float) :
    Legible (s.fragments cyclesPerNs) := by
  unfold Legible Summary.fragments
  simp only [plain, styled, List.forall_mem_cons, unescaped_append, unescaped_toString,
    unescaped_nat, unescaped_fixed, true_and, and_true]
  decide +kernel

theorem Caution.fragments_legible (c : Caution) : Legible c.fragments := by
  unfold Legible Caution.fragments
  simp only [plain, styled, List.forall_mem_cons, c.message_unescaped, true_and]
  decide

theorem LoopReport.fragments_legible {r : LoopReport} (hname : Unescaped r.name.toList)
    (cyclesPerNs : Float) : Legible (r.fragments cyclesPerNs) := by
  have hhead : Legible [plain "\n", styled .bold r.name, plain "\n"] := by
    simp only [Legible, plain, styled, List.forall_mem_cons, hname, true_and]
    decide
  have hrejected : Legible (if 0 < r.rejected.total then
      [plain "  rejected ", styled .yellow (toString r.rejected.total.toNat),
        plain s!" of {r.attempts.toNat} attempts\n"]
      else []) := by
    split
    · simp only [Legible, plain, styled, List.forall_mem_cons, unescaped_append, unescaped_toString,
        unescaped_nat, true_and]
      decide +kernel
    · exact List.forall_mem_nil _
  unfold LoopReport.fragments
  simp only [legible_append]
  refine ⟨⟨⟨hhead, ?_⟩, hrejected⟩, legible_flatMap fun c _ => c.fragments_legible⟩
  cases r.summary with
  | some s => exact s.fragments_legible cyclesPerNs
  | none =>
    show ∀ f ∈ [plain "  ", styled .boldRed "no accepted samples", plain "\n"],
      Unescaped f.text.toList
    decide +kernel

theorem Measurement.fragments_legible {m : Measurement}
    (hnames : ∀ l ∈ m.loops, Unescaped l.name.toList) (cyclesPerNs : Float) :
    Legible (m.fragments cyclesPerNs) := by
  unfold Measurement.fragments
  refine legible_append.2 ⟨legible_flatMap fun l hl => l.fragments_legible (hnames l hl) _, ?_⟩
  split
  · simp only [Legible, styled, List.forall_mem_cons, unescaped_append, unescaped_toString,
      unescaped_fixed]
    decide +kernel
  · exact List.forall_mem_nil _

/-- No fragment of a report has an escape if none of its names does. -/
theorem RunReport.fragments_legible {r : RunReport} (hclock : Unescaped r.clock.toList)
    (hnames : ∀ m ∈ r.measurements, ∀ l ∈ m.2.loops, Unescaped l.name.toList) :
    Legible r.fragments := by
  unfold RunReport.fragments
  refine legible_append.2 ⟨?_, legible_flatMap fun m hm => m.2.fragments_legible (hnames m hm) _⟩
  simp only [Legible, plain, styled, List.forall_mem_cons, unescaped_append, unescaped_toString,
    unescaped_nat, unescaped_fixed, hclock, true_and]
  decide +kernel

/-- A report whose clock and loops have names without escapes: its text in colour, with every
sequence taken out of it, is its text without colour; and in colour every sequence that opens a
style is closed by a reset before the next one opens. -/
theorem RunReport.terminal_stripped (r : RunReport) (hclock : Unescaped r.clock.toList)
    (hnames : ∀ m ∈ r.measurements, ∀ l ∈ m.2.loops, Unescaped l.name.toList) :
    stripped (r.terminal true) = r.terminal false ∧ Closed (sequences (r.terminal true)) :=
  render_stripped (RunReport.fragments_legible hclock hnames)

theorem RunReport.terminal_stripped_varied :
    Unescaped RunReport.varied.clock.toList ∧
      (∀ m ∈ RunReport.varied.measurements, ∀ l ∈ m.2.loops, Unescaped l.name.toList) ∧
      stripped (RunReport.varied.terminal true) = RunReport.varied.terminal false ∧
      Closed (sequences (RunReport.varied.terminal true)) := by
  have hclock : Unescaped RunReport.varied.clock.toList := by decide
  have hnames : ∀ m ∈ RunReport.varied.measurements, ∀ l ∈ m.2.loops, Unescaped l.name.toList := by
    decide +kernel
  exact ⟨hclock, hnames, RunReport.terminal_stripped _ hclock hnames⟩

end LatencyGauge
