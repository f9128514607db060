/-
Reading a value back from its text. A text spells tokens, with blanks anywhere between them and
texts escaped in any way, if every numeral is followed by something that does not go on with it; then
scanning finds those tokens. The tokens of a value are read back as the value, so both its compact
text and its pretty one are.
-/
import LatencyGauge.Json.Reader
import LatencyGauge.Json.Writer
import LatencyGauge.Proofs.Json.Numerals
import LatencyGauge.Proofs.Json.Texts

namespace LatencyGauge.Json

/-! ## Tokens -/

/-- A token whose numeral, if it is one, the grammar allows. -/
def Token.Proper : Token → Prop
  | .number n => n.Proper
  | _ => True

/-- A text that a token in front of it does not go on with. -/
def Token.EndsAt : Token → List Char → Prop
  | .number _, cs => EndsNumeral cs
  | _, _ => True

@[simp]
theorem Token.chars_openBrace : Token.openBrace.chars = ['\x7b'] := rfl

@[simp]
theorem Token.chars_closeBrace : Token.closeBrace.chars = ['\x7d'] := rfl

@[simp]
theorem Token.chars_openBracket : Token.openBracket.chars = ['['] := rfl

@[simp]
theorem Token.chars_closeBracket : Token.closeBracket.chars = [']'] := rfl

@[simp]
theorem Token.chars_comma : Token.comma.chars = [','] := rfl

@[simp]
theorem Token.chars_colon : Token.colon.chars = [':'] := rfl

@[simp]
theorem Token.chars_text (t : Text) : (Token.text t).chars = t.chars := rfl

/-- A proper numeral starts with a sign or a digit. -/
theorem Numeral.Proper.chars_eq_cons {n : Numeral} (hn : n.Proper) :
    ∃ c r, n.chars = c :: r ∧ (c = '-' ∨ ∃ d : Number.Digit, c = d.char) := by
  obtain ⟨d, ds, hwhole⟩ := List.exists_cons_of_ne_nil hn.whole
  have hchars := n.chars_append []
  cases hnegative : n.negative with
  | true => exact ⟨'-', _, by simpa [hnegative] using hchars, .inl rfl⟩
  | false =>
    exact ⟨d.char, _, by simpa [hnegative, hwhole, Number.digitChars] using hchars, .inr ⟨d, rfl⟩⟩

/-- No other token starts with a sign or a digit. -/
theorem Token.scan_numeral {c : Char} (hc : c = '-' ∨ ∃ d : Number.Digit, c = d.char)
    (r : List Char) :
    Token.scan (c :: r) = (Numeral.scan (c :: r)).map fun (n, rest) => (.number n, rest) := by
  -- the other tokens are told by their first characters
  have hother : c ∉ ['\x7b', '\x7d', '[', ']', ',', ':', 'n', 't', 'f', '"'] := by
    obtain rfl | ⟨d, rfl⟩ := hc
    · decide
    · revert d
      decide
  have hnot : ∀ {a : Char} {s : List Char},
      a ∈ ['\x7b', '\x7d', '[', ']', ',', ':', 'n', 't', 'f', '"'] → c :: r = a :: s → False := by
    intro a s ha heq
    obtain ⟨rfl, -⟩ := List.cons.inj heq
    exact hother ha
  apply Token.scan.eq_11
  all_goals
    intro _
    apply hnot
    decide

/-- A token that starts with a quote is a text. -/
theorem Token.scan_quote (r : List Char) :
    Token.scan ('"' :: r) = (Text.scan r).map fun (t, rest) => (.text t, rest) := rfl

/-- A token scans to itself. -/
theorem Token.scan_chars {t : Token} (ht : t.Proper) {rest : List Char} (hends : t.EndsAt rest) :
    Token.scan (t.chars ++ rest) = some (t, rest) := by
  cases t with
  | bool b => cases b <;> rfl
  | number n =>
    obtain ⟨c, r, hchars, hc⟩ := ht.chars_eq_cons
    have hscan := Numeral.scan_chars ht hends
    show Token.scan (n.chars ++ rest) = _
    rw [hchars, List.cons_append] at hscan ⊢
    rw [Token.scan_numeral hc, hscan]
    rfl
  | text t =>
    obtain ⟨body, hbody, hscan⟩ := Text.scan_chars t
    rw [Token.chars_text, hbody, List.cons_append, Token.scan_quote, hscan, Option.map_some]
  | _ => rfl

theorem isBlank_digitChar (d : Number.Digit) : isBlank d.char = false := by
  revert d
  decide

/-- A token's text does not start with a blank. -/
theorem Token.chars_eq_cons {t : Token} (ht : t.Proper) :
    ∃ c r, t.chars = c :: r ∧ isBlank c = false := by
  cases t with
  | bool b => cases b <;> exact ⟨_, _, rfl, by decide⟩
  | number n =>
    obtain ⟨c, r, hchars, hc⟩ := ht.chars_eq_cons
    refine ⟨c, r, hchars, ?_⟩
    obtain rfl | ⟨d, rfl⟩ := hc
    · decide
    · exact isBlank_digitChar d
  | text t =>
    obtain ⟨body, hbody, -⟩ := Text.scan_chars t
    exact ⟨_, _, hbody, by decide⟩
  | _ => exact ⟨_, _, rfl, by decide⟩

/-! ## Spelling -/

/-- The texts of a token: its own, and for a text every literal that stands for it. -/
inductive Token.SpeltBy : Token → List Char → Prop
  | own {t : Token} (ht : t.Proper) : t.SpeltBy t.chars
  | literal {ns : List Nat} {cs : List Char} (h : Codes ns cs) :
      (Token.text ((joinCodes ns).map String.ofList)).SpeltBy ('"' :: (cs ++ ['"']))

/-- Every text of a token scans to it. -/
theorem Token.SpeltBy.scan {t : Token} {cs : List Char} (h : t.SpeltBy cs) {rest : List Char}
    (hends : t.EndsAt rest) : Token.scan (cs ++ rest) = some (t, rest) := by
  cases h with
  | own ht => exact Token.scan_chars ht hends
  | literal h =>
    rw [List.cons_append, List.append_assoc, List.singleton_append, Token.scan_quote, Text.scan,
      h.scan rest]
    rfl

/-- No text of a token starts with a blank. -/
theorem Token.SpeltBy.eq_cons {t : Token} {cs : List Char} (h : t.SpeltBy cs) :
    ∃ c r, cs = c :: r ∧ isBlank c = false := by
  cases h with
  | own ht => exact Token.chars_eq_cons ht
  | literal h => exact ⟨_, _, rfl, by decide⟩

/-- A text that spells tokens, with blanks between them. -/
inductive Spelling : List Token → List Char → Prop
  | done : Spelling [] []
  | blank {c : Char} {ts : List Token} {cs : List Char} (hc : isBlank c = true)
      (h : Spelling ts cs) : Spelling ts (c :: cs)
  | token {t : Token} {text : List Char} {ts : List Token} {cs : List Char} (ht : t.SpeltBy text)
      (hends : t.EndsAt cs) (h : Spelling ts cs) : Spelling (t :: ts) (text ++ cs)

/-- A text scans to the tokens it spells. -/
theorem scanUpTo_of_spelling {ts : List Token} {cs : List Char} (h : Spelling ts cs) {bound : Nat}
    (hbound : cs.length ≤ bound) : Token.scanUpTo bound cs = some ts := by
  induction h generalizing bound with
  | done => cases bound <;> rfl
  | @blank c ts cs hc h ih =>
    obtain ⟨bound, rfl⟩ : ∃ b, bound = b + 1 := ⟨bound - 1, by simp at hbound; omega⟩
    simp only [Token.scanUpTo, hc, if_true]
    exact ih (by simpa using hbound)
  | @token t text ts cs ht hends h ih =>
    have hscan := ht.scan hends
    obtain ⟨c, r, rfl, hblank⟩ := ht.eq_cons
    rw [List.cons_append] at hscan hbound ⊢
    obtain ⟨bound, rfl⟩ : ∃ b, bound = b + 1 := ⟨bound - 1, by simp at hbound; omega⟩
    simp only [List.length_cons, List.length_append] at hbound
    simp only [Token.scanUpTo, hblank, hscan, Bool.false_eq_true, if_false,
      ih (by omega : cs.length ≤ bound)]
    rfl

theorem Token.ofChars_of_spelling {ts : List Token} {cs : List Char} (h : Spelling ts cs) :
    Token.ofChars cs = some ts :=
  scanUpTo_of_spelling h (Nat.le_refl _)

theorem Spelling.blanks {ts : List Token} {cs : List Char} (h : Spelling ts cs) (k : Nat) :
    Spelling ts (List.replicate k ' ' ++ cs) := by
  induction k with
  | zero => exact h
  | succ k ih => exact .blank (by decide) ih

theorem Spelling.newline {ts : List Token} {cs : List Char} (h : Spelling ts cs) (level : Nat) :
    Spelling ts (newline level ++ cs) :=
  .blank (by decide) (h.blanks _)

/-! ## Values from their tokens -/

/-- With enough fuel the value is read from its tokens, whatever comes after them. -/
def Value.ReadsBack (v : Value) : Prop :=
  ∀ fuel ts, 2 * v.tokens.length ≤ fuel + 1 → readValue fuel (v.tokens ++ ts) = some (v, ts)

theorem Value.tokens_eq_cons (v : Value) :
    ∃ t ts, v.tokens = t :: ts ∧ t ≠ .closeBracket ∧ t ≠ .closeBrace := by
  cases v with
  | array items => cases items <;> exact ⟨_, _, by rw [Value.tokens], by simp, by simp⟩
  | object members =>
    rcases members with _ | ⟨⟨k, v⟩, ms⟩ <;> exact ⟨_, _, by rw [Value.tokens], by simp, by simp⟩
  | _ => exact ⟨_, _, by rw [Value.tokens], by simp, by simp⟩

theorem Value.length_tokens_pos (v : Value) : 0 < v.tokens.length := by
  obtain ⟨t, ts, htokens, -⟩ := v.tokens_eq_cons
  simp [htokens]

/-- An array with items is read item by item. -/
theorem readValue_openBracket {fuel : Nat} {v : Value} (ts : List Token) :
    readValue (fuel + 1) (.openBracket :: (v.tokens ++ ts)) =
      (readItems fuel (v.tokens ++ ts)).map fun (vs, rest) => (.array vs, rest) := by
  obtain ⟨t, ts', htokens, hbracket, -⟩ := v.tokens_eq_cons
  rw [htokens, List.cons_append, readValue]
  simpa using hbracket

mutual

/-- Every value is read back from its tokens. -/
theorem Value.readsBack : ∀ v : Value, v.ReadsBack
  | .null, fuel, ts, hfuel | .bool _, fuel, ts, hfuel | .number _, fuel, ts, hfuel
  | .text _, fuel, ts, hfuel | .array [], fuel, ts, hfuel | .object [], fuel, ts, hfuel => by
    obtain ⟨fuel, rfl⟩ : ∃ f, fuel = f + 1 := ⟨fuel - 1, by simp [Value.tokens] at hfuel; omega⟩
    rfl
  | .array (v :: vs), fuel, ts, hfuel => by
    simp only [Value.tokens, List.length_cons, List.length_append] at hfuel
    obtain ⟨fuel, rfl⟩ : ∃ f, fuel = f + 1 := ⟨fuel - 1, by omega⟩
    -- the bracket's share of the fuel pays for this step
    have hitems := readItems_tokens vs v.readsBack fuel ts (by omega)
    simp only [Value.tokens, List.cons_append, List.append_assoc]
    rw [readValue_openBracket, hitems, Option.map_some]
  | .object ((k, v) :: ms), fuel, ts, hfuel => by
    simp only [Value.tokens, List.length_cons, List.length_append] at hfuel
    obtain ⟨fuel, rfl⟩ : ∃ f, fuel = f + 1 := ⟨fuel - 1, by omega⟩
    have hmembers := readMembers_tokens ms k v.readsBack fuel ts (by omega)
    simp only [Value.tokens, List.cons_append, List.append_assoc, readValue]
    rw [hmembers, Option.map_some]

/-- The items of an array, the first of which is read back, are read back. -/
theorem readItems_tokens : ∀ (vs : List Value) {v : Value}, v.ReadsBack → ∀ fuel ts,
    2 * (v.tokens.length + (itemTokens vs).length) ≤ fuel →
      readItems fuel (v.tokens ++ (itemTokens vs ++ ts)) = some (v :: vs, ts)
  | [], v, hv, fuel, ts, hfuel => by
    simp only [itemTokens, List.length_singleton] at hfuel
    obtain ⟨fuel, rfl⟩ : ∃ f, fuel = f + 1 := ⟨fuel - 1, by omega⟩
    rw [readItems, hv fuel _ (by omega)]
    rfl
  | w :: vs, v, hv, fuel, ts, hfuel => by
    simp only [itemTokens, List.length_cons, List.length_append] at hfuel
    have hpos := v.length_tokens_pos
    obtain ⟨fuel, rfl⟩ : ∃ f, fuel = f + 1 := ⟨fuel - 1, by omega⟩
    have hrest := readItems_tokens vs w.readsBack fuel ts (by omega)
    rw [readItems, hv fuel _ (by omega)]
    simp only [itemTokens, List.cons_append, List.append_assoc, hrest, Option.map_some]

/-- The members of an object, the first value of which is read back, are read back. -/
theorem readMembers_tokens : ∀ (ms : List (Text × Value)) (k : Text) {v : Value}, v.ReadsBack →
    ∀ fuel ts, 2 * (v.tokens.length + (memberTokens ms).length) ≤ fuel →
      readMembers fuel (.text k :: .colon :: (v.tokens ++ (memberTokens ms ++ ts))) =
        some ((k, v) :: ms, ts)
  | [], k, v, hv, fuel, ts, hfuel => by
    simp only [memberTokens, List.length_singleton] at hfuel
    obtain ⟨fuel, rfl⟩ : ∃ f, fuel = f + 1 := ⟨fuel - 1, by omega⟩
    rw [readMembers, hv fuel _ (by omega)]
    rfl
  | (k', w) :: ms, k, v, hv, fuel, ts, hfuel => by
    simp only [memberTokens, List.length_cons, List.length_append] at hfuel
    have hpos := v.length_tokens_pos
    obtain ⟨fuel, rfl⟩ : ∃ f, fuel = f + 1 := ⟨fuel - 1, by omega⟩
    have hrest := readMembers_tokens ms k' w.readsBack fuel ts (by omega)
    rw [readMembers, hv fuel _ (by omega)]
    simp only [memberTokens, List.cons_append, List.append_assoc, hrest, Option.map_some]

end

/-- The tokens of a value spell it. -/
theorem Value.ofTokens_tokens (v : Value) : Value.ofTokens v.tokens = some v := by
  have hread := v.readsBack (2 * v.tokens.length) [] (by omega)
  rw [List.append_nil] at hread
  rw [Value.ofTokens, hread]

/-! ## Values whose numerals are proper -/

/-- A value with no numeral that the grammar does not allow. -/
def Value.Proper (v : Value) : Prop := ∀ t ∈ v.tokens, t.Proper

def ItemsProper (vs : List Value) : Prop := ∀ t ∈ itemTokens vs, t.Proper

def MembersProper (ms : List (Text × Value)) : Prop := ∀ t ∈ memberTokens ms, t.Proper

theorem ItemsProper.cons_iff {v : Value} {vs : List Value} :
    ItemsProper (v :: vs) ↔ v.Proper ∧ ItemsProper vs := by
  simp [ItemsProper, Value.Proper, itemTokens, Token.Proper, or_imp, forall_and]

theorem MembersProper.cons_iff {k : Text} {v : Value} {ms : List (Text × Value)} :
    MembersProper ((k, v) :: ms) ↔ v.Proper ∧ MembersProper ms := by
  simp [MembersProper, Value.Proper, memberTokens, Token.Proper, or_imp, forall_and]

theorem Value.Proper.array_iff {vs : List Value} : (Value.array vs).Proper ↔ ItemsProper vs := by
  cases vs <;> simp [Value.Proper, ItemsProper, Value.tokens, itemTokens, Token.Proper]

theorem Value.Proper.object_iff {ms : List (Text × Value)} :
    (Value.object ms).Proper ↔ MembersProper ms := by
  rcases ms with _ | ⟨⟨k, v⟩, ms⟩ <;>
    simp [Value.Proper, MembersProper, Value.tokens, memberTokens, Token.Proper]

/-! ## Texts of values -/

theorem endsNumeral_of_mem {c : Char} (hc : c ∈ [',', '\n', ']', '\x7d']) (cs : List Char) :
    EndsNumeral (c :: cs) := by
  simp only [List.mem_cons, List.not_mem_nil, or_false] at hc
  rcases hc with rfl | rfl | rfl | rfl <;> exact ⟨rfl, by decide, by decide, by decide⟩

theorem endsNumeral_prettyItems (level : Nat) (vs : List Value) (cs : List Char) :
    EndsNumeral (prettyItems level vs ++ cs) := by
  cases vs <;> exact endsNumeral_of_mem (by decide) _

theorem endsNumeral_prettyMembers (level : Nat) (ms : List (Text × Value)) (cs : List Char) :
    EndsNumeral (prettyMembers level ms ++ cs) := by
  rcases ms with _ | ⟨⟨k, v⟩, ms⟩ <;> exact endsNumeral_of_mem (by decide) _

/-- A token that is no numeral, in front of a text. -/
theorem Spelling.mark (t : Token) (ht : ∀ n, t ≠ .number n) {ts : List Token} {cs : List Char}
    (h : Spelling ts cs) : Spelling (t :: ts) (t.chars ++ cs) := by
  cases t with
  | number n => exact absurd rfl (ht n)
  | _ => exact .token (.own trivial) trivial h

mutual

/-- The pretty text of a value spells its tokens. -/
theorem Value.spelling_prettyChars : ∀ (v : Value) (level : Nat) {ts : List Token} {cs : List Char},
    v.Proper → EndsNumeral cs → Spelling ts cs →
      Spelling (v.tokens ++ ts) (v.prettyChars level ++ cs)
  | .null, _, _, _, _, _, h => .mark .null nofun h
  | .bool b, _, _, _, _, _, h => .mark (.bool b) nofun h
  | .number n, _, _, _, hv, hends, h =>
    .token (.own (hv (.number n) (by simp [Value.tokens]))) hends h
  | .text t, _, _, _, _, _, h => .mark (.text t) nofun h
  | .array [], _, _, _, _, _, h => .mark .openBracket nofun (.mark .closeBracket nofun h)
  | .object [], _, _, _, _, _, h => .mark .openBrace nofun (.mark .closeBrace nofun h)
  | .array (v :: vs), level, _, _, hv, _, h => by
    obtain ⟨hfirst, hrest⟩ := ItemsProper.cons_iff.1 (Value.Proper.array_iff.1 hv)
    have hitems := spelling_prettyItems vs level hrest h
    have hvalue := v.spelling_prettyChars (level + 1) hfirst (endsNumeral_prettyItems ..) hitems
    have hopen := Spelling.mark .openBracket nofun (hvalue.newline (level + 1))
    simpa [Value.tokens, Value.prettyChars] using hopen
  | .object ((k, v) :: ms), level, _, _, hv, _, h => by
    obtain ⟨hfirst, hrest⟩ := MembersProper.cons_iff.1 (Value.Proper.object_iff.1 hv)
    have hmembers := spelling_prettyMembers ms level hrest h
    have hvalue := v.spelling_prettyChars (level + 1) hfirst (endsNumeral_prettyMembers ..) hmembers
    have hkey := Spelling.mark (.text k) nofun (.mark .colon nofun (hvalue.blanks 1))
    have hopen := Spelling.mark .openBrace nofun (hkey.newline (level + 1))
    simpa [Value.tokens, Value.prettyChars] using hopen

theorem spelling_prettyItems : ∀ (vs : List Value) (level : Nat) {ts : List Token} {cs : List Char},
    ItemsProper vs → Spelling ts cs → Spelling (itemTokens vs ++ ts) (prettyItems level vs ++ cs)
  | [], level, _, _, _, h => by
    have hclose := (Spelling.mark .closeBracket nofun h).newline level
    simpa [itemTokens, prettyItems] using hclose
  | v :: vs, level, _, _, hvs, h => by
    obtain ⟨hfirst, hrest⟩ := ItemsProper.cons_iff.1 hvs
    have hitems := spelling_prettyItems vs level hrest h
    have hvalue := v.spelling_prettyChars (level + 1) hfirst (endsNumeral_prettyItems ..) hitems
    have hcomma := Spelling.mark .comma nofun (hvalue.newline (level + 1))
    simpa [itemTokens, prettyItems] using hcomma

theorem spelling_prettyMembers : ∀ (ms : List (Text × Value)) (level : Nat) {ts : List Token}
    {cs : List Char}, MembersProper ms → Spelling ts cs →
      Spelling (memberTokens ms ++ ts) (prettyMembers level ms ++ cs)
  | [], level, _, _, _, h => by
    have hclose := (Spelling.mark .closeBrace nofun h).newline level
    simpa [memberTokens, prettyMembers] using hclose
  | (k, v) :: ms, level, _, _, hms, h => by
    obtain ⟨hfirst, hrest⟩ := MembersProper.cons_iff.1 hms
    have hmembers := spelling_prettyMembers ms level hrest h
    have hvalue := v.spelling_prettyChars (level + 1) hfirst (endsNumeral_prettyMembers ..) hmembers
    have hkey := Spelling.mark (.text k) nofun (.mark .colon nofun (hvalue.blanks 1))
    have hcomma := Spelling.mark .comma nofun (hkey.newline (level + 1))
    simpa [memberTokens, prettyMembers] using hcomma

end

/-- The text of tokens without white space. -/
def tokenChars (ts : List Token) : List Char := ts.flatMap Token.chars

theorem endsNumeral_itemTokens (vs : List Value) (cs : List Char) :
    EndsNumeral (tokenChars (itemTokens vs) ++ cs) := by
  cases vs <;> exact endsNumeral_of_mem (by decide) _

theorem endsNumeral_memberTokens (ms : List (Text × Value)) (cs : List Char) :
    EndsNumeral (tokenChars (memberTokens ms) ++ cs) := by
  rcases ms with _ | ⟨⟨k, v⟩, ms⟩ <;> exact endsNumeral_of_mem (by decide) _

mutual

/-- The compact text of a value spells its tokens. -/
theorem Value.spelling_tokenChars : ∀ (v : Value) {ts : List Token} {cs : List Char},
    v.Proper → EndsNumeral cs → Spelling ts cs →
      Spelling (v.tokens ++ ts) (tokenChars v.tokens ++ cs)
  | .null, _, _, _, _, h => .mark .null nofun h
  | .bool b, _, _, _, _, h => by simpa [tokenChars, Value.tokens] using h.mark (.bool b) nofun
  | .number n, _, _, hv, hends, h => by
    simpa [tokenChars, Value.tokens] using
      Spelling.token (.own (hv (.number n) (by simp [Value.tokens]))) hends h
  | .text t, _, _, _, _, h => by simpa [tokenChars, Value.tokens] using h.mark (.text t) nofun
  | .array [], _, _, _, _, h => .mark .openBracket nofun (.mark .closeBracket nofun h)
  | .object [], _, _, _, _, h => .mark .openBrace nofun (.mark .closeBrace nofun h)
  | .array (v :: vs), _, _, hv, _, h => by
    obtain ⟨hfirst, hrest⟩ := ItemsProper.cons_iff.1 (Value.Proper.array_iff.1 hv)
    have hitems := spelling_itemTokens vs hrest h
    have hvalue := v.spelling_tokenChars hfirst (endsNumeral_itemTokens ..) hitems
    simpa [tokenChars, Value.tokens] using hvalue.mark .openBracket nofun
  | .object ((k, v) :: ms), _, _, hv, _, h => by
    obtain ⟨hfirst, hrest⟩ := MembersProper.cons_iff.1 (Value.Proper.object_iff.1 hv)
    have hmembers := spelling_memberTokens ms hrest h
    have hvalue := v.spelling_tokenChars hfirst (endsNumeral_memberTokens ..) hmembers
    have hkey := Spelling.mark (.text k) nofun (.mark .colon nofun hvalue)
    simpa [tokenChars, Value.tokens] using hkey.mark .openBrace nofun

theorem spelling_itemTokens : ∀ (vs : List Value) {ts : List Token} {cs : List Char},
    ItemsProper vs → Spelling ts cs →
      Spelling (itemTokens vs ++ ts) (tokenChars (itemTokens vs) ++ cs)
  | [], _, _, _, h => .mark .closeBracket nofun h
  | v :: vs, _, _, hvs, h => by
    obtain ⟨hfirst, hrest⟩ := ItemsProper.cons_iff.1 hvs
    have hitems := spelling_itemTokens vs hrest h
    have hvalue := v.spelling_tokenChars hfirst (endsNumeral_itemTokens ..) hitems
    simpa [tokenChars, itemTokens] using hvalue.mark .comma nofun

theorem spelling_memberTokens : ∀ (ms : List (Text × Value)) {ts : List Token} {cs : List Char},
    MembersProper ms → Spelling ts cs →
      Spelling (memberTokens ms ++ ts) (tokenChars (memberTokens ms) ++ cs)
  | [], _, _, _, h => .mark .closeBrace nofun h
  | (k, v) :: ms, _, _, hms, h => by
    obtain ⟨hfirst, hrest⟩ := MembersProper.cons_iff.1 hms
    have hmembers := spelling_memberTokens ms hrest h
    have hvalue := v.spelling_tokenChars hfirst (endsNumeral_memberTokens ..) hmembers
    have hkey := Spelling.mark (.text k) nofun (.mark .colon nofun hvalue)
    simpa [tokenChars, memberTokens] using hkey.mark .comma nofun

end

/-- A text that spells the tokens of a value is parsed to it. -/
theorem Value.parse_of_spelling {v : Value} {cs : List Char} (h : Spelling v.tokens cs) :
    Value.parse (String.ofList cs) = some v := by
  rw [Value.parse, String.toList_ofList, Token.ofChars_of_spelling h, Option.bind_some,
    v.ofTokens_tokens]

theorem Value.parse_pretty {v : Value} (hv : v.Proper) : Value.parse v.pretty = some v := by
  have h := v.spelling_prettyChars 0 hv (show EndsNumeral [] from trivial) .done
  rw [List.append_nil, List.append_nil] at h
  exact Value.parse_of_spelling h

theorem Value.parse_compact {v : Value} (hv : v.Proper) : Value.parse v.compact = some v := by
  have h := v.spelling_tokenChars hv (show EndsNumeral [] from trivial) .done
  rw [List.append_nil, List.append_nil] at h
  exact Value.parse_of_spelling h

/-! ## Values that are written -/

theorem Value.Proper.record_iff {members : List (String × Value)} :
    (Value.record members).Proper ↔ ∀ m ∈ members, m.2.Proper := by
  rw [Value.record, Value.Proper.object_iff]
  induction members with
  | nil => simp [MembersProper, memberTokens, Token.Proper]
  | cons m members ih => rw [List.map_cons, MembersProper.cons_iff, ih, List.forall_mem_cons]

@[simp]
theorem Value.null_proper : Value.null.Proper := by
  simp [Value.Proper, Value.tokens, Token.Proper]

@[simp]
theorem Value.bool_proper (b : Bool) : (Value.bool b).Proper := by
  simp [Value.Proper, Value.tokens, Token.Proper]

@[simp]
theorem Value.ofString_proper (s : String) : (Value.ofString s).Proper := by
  simp [Value.ofString, Value.Proper, Value.tokens, Token.Proper]

theorem Value.number_proper {n : Numeral} (hn : n.Proper) : (Value.number n).Proper := by
  simpa [Value.Proper, Value.tokens, Token.Proper] using hn

@[simp]
theorem Value.ofNat_proper (n : Nat) : (Value.ofNat n).Proper :=
  Value.number_proper (Numeral.ofNat_proper n)

@[simp]
theorem Value.ofWord_proper (n : UInt64) : (Value.ofWord n).Proper := Value.ofNat_proper n.toNat

@[simp]
theorem Value.ofFloat_proper (x : Float) : (Value.ofFloat x).Proper := by
  unfold Value.ofFloat
  split
  case h_1 n hn => exact Value.number_proper (Numeral.ofFloat?_proper hn)
  case h_2 => exact Value.null_proper

end LatencyGauge.Json
