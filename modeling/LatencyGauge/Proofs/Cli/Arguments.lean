/-
What the arguments of the program say. They spell flags, and settings with texts; each of them has a
name, and some have a letter. The program reads options out of arguments exactly if these spell
items of which none is there twice and all texts can be read, and the options are then those of the
items, each in its own place. What is read before a request for help or for the version has to be
such items too.
-/
import Mathlib.Data.List.Nodup
import Mathlib.Data.List.TakeWhile
import LatencyGauge.Cli.Options

namespace LatencyGauge

variable {o o' : Options} {text : String} {arguments front : List String}

/-! ## Names and letters -/

/-- The name of a setting. -/
def Setting.name : Setting → String
  | .preset => "preset"
  | .config => "config"
  | .cores => "cores"
  | .samples => "samples"
  | .maxAttempts => "max-attempts"
  | .baseline => "baseline"
  | .ceiling => "ceiling"
  | .tickPeriod => "tick-us"
  | .marker => "marker"
  | .saveTo => "save-config"

/-- The letter of a setting that has one. -/
def Setting.letter? : Setting → Option Char
  | .preset => some 'p'
  | .config => some 'c'
  | .samples => some 's'
  | _ => none

/-- The name of a flag. -/
def Flag.name : Flag → String
  | .interfere => "interfere"
  | .sentinel => "sentinel"
  | .unpinned => "no-pin"
  | .unfiltered => "unfiltered"
  | .json => "json"

/-- The name of a switch. -/
def Switch.name : Switch → String
  | .setting s => s.name
  | .flag f => f.name
  | .help => "help"
  | .version => "version"

/-- The letter of a switch that has one. -/
def Switch.letter? : Switch → Option Char
  | .setting s => s.letter?
  | .flag _ => none
  | .help => some 'h'
  | .version => some 'V'

/-- The program knows every switch by its name, and by nothing else. -/
theorem Switch.lookup_names {name : String} {w : Switch} :
    Switch.names.lookup name = some w ↔ name = w.name := by
  constructor
  · intro h
    obtain ⟨before, after, hnames, -⟩ := List.lookup_eq_some_iff.1 h
    have hmem : (name, w) ∈ Switch.names := by simp [hnames]
    have hall : ∀ x ∈ Switch.names, x.1 = x.2.name := by decide +kernel
    exact hall _ hmem
  · rintro rfl
    rcases w with s | f | _ | _
    · cases s <;> rfl
    · cases f <;> rfl
    · rfl
    · rfl

/-- The program knows a switch by its letter, if it has one, and by no other. -/
theorem Switch.lookup_letters {c : Char} {w : Switch} :
    Switch.letters.lookup c = some w ↔ w.letter? = some c := by
  constructor
  · intro h
    obtain ⟨before, after, hletters, -⟩ := List.lookup_eq_some_iff.1 h
    have hmem : (c, w) ∈ Switch.letters := by simp [hletters]
    have hall : ∀ x ∈ Switch.letters, x.2.letter? = some x.1 := by decide
    exact hall _ hmem
  · intro h
    rcases w with s | f | _ | _
    · cases s <;> cases h <;> rfl
    · cases h
    · cases h; rfl
    · cases h; rfl

theorem Switch.letter_ne_dash {w : Switch} {c : Char} (h : w.letter? = some c) : c ≠ '-' := by
  rintro rfl
  have hnone : Switch.letters.lookup '-' = none := by decide
  rw [Switch.lookup_letters.2 h] at hnone
  cases hnone

theorem Switch.name_chars (w : Switch) :
    w.name.toList ≠ [] ∧ ∀ c ∈ w.name.toList, (c != '=') = true := by
  have hchars : w.name.toList ≠ [] ∧ '=' ∉ w.name.toList := by
    rcases w with s | f | _ | _
    · cases s <;> decide
    · cases f <;> decide
    · decide
    · decide
  exact ⟨hchars.1, fun c hc => bne_iff_ne.2 fun heq => hchars.2 (heq ▸ hc)⟩

/-! ## Arguments on their own -/

/-- How an argument is spelt on its own: two dashes and a name, or a dash and a letter; with a text
behind an equals sign, or right behind the letter. Whatever follows the letter of a request does not
matter. -/
inductive Argument.Spelt : Argument → String → Prop
  | long (w : Switch) : Spelt w.argument ("--" ++ w.name)
  | longWith (s : Setting) (text : String) : Spelt (.given s text) ("--" ++ s.name ++ "=" ++ text)
  | short {w : Switch} {c : Char} (hc : w.letter? = some c) :
      Spelt w.argument ("-" ++ .singleton c)
  | shortWith {s : Setting} {c : Char} (hc : s.letter? = some c) (text : String) :
      Spelt (.given s text) ("-" ++ .singleton c ++ "=" ++ text)
  | attached {s : Setting} {c : Char} (hc : s.letter? = some c) {text : String} (hany : text ≠ "")
      (hequals : ∀ cs, text.toList ≠ '=' :: cs) :
      Spelt (.given s text) ("-" ++ .singleton c ++ text)
  | help (tail : String) : Spelt (.stop .help) ("-h" ++ tail)
  | version (tail : String) : Spelt (.stop .version) ("-V" ++ tail)
  | terminator : Spelt .terminator "--"

theorem Argument.read_long {cs : List Char} (htext : text.toList = '-' :: '-' :: cs)
    (hany : cs ≠ []) : Argument.read text = .long cs := by
  obtain ⟨c, cs, rfl⟩ := List.exists_cons_of_ne_nil hany
  simp only [Argument.read, htext]

theorem Argument.read_short {c : Char} {cs : List Char} (htext : text.toList = '-' :: c :: cs)
    (hc : c ≠ '-') : Argument.read text = .short c cs := by
  unfold Argument.read
  rw [htext]
  split <;> simp_all

/-- A name before the end of the argument or before an equals sign is found. -/
theorem Argument.long_name (w : Switch) : Argument.long w.name.toList = w.argument := by
  obtain ⟨-, hall⟩ := w.name_chars
  have hbefore : w.name.toList.takeWhile (· != '=') = w.name.toList :=
    List.takeWhile_eq_self_iff.2 hall
  have hbehind : w.name.toList.dropWhile (· != '=') = [] := List.dropWhile_eq_nil_iff.2 hall
  simp only [Argument.long, hbefore, hbehind, String.ofList_toList, Switch.lookup_names.2 rfl]

theorem Argument.long_name_with (w : Switch) (cs : List Char) :
    Argument.long (w.name.toList ++ '=' :: cs) = w.given cs := by
  obtain ⟨-, hall⟩ := w.name_chars
  have hbefore : (w.name.toList ++ '=' :: cs).takeWhile (· != '=') = w.name.toList := by
    rw [List.takeWhile_append_of_pos hall]
    simp
  have hbehind : (w.name.toList ++ '=' :: cs).dropWhile (· != '=') = '=' :: cs := by
    rw [List.dropWhile_append_of_pos hall]
    simp
  simp only [Argument.long, hbefore, hbehind, String.ofList_toList, Switch.lookup_names.2 rfl]

theorem Argument.spelt_of_long {a : Argument} {cs : List Char}
    (htext : text.toList = '-' :: '-' :: cs) (h : Argument.long cs = a)
    (husable : a ≠ .stop .usage) : a.Spelt text := by
  have hsplit := List.takeWhile_append_dropWhile (p := (· != '=')) (l := cs)
  unfold Argument.long at h
  cases hname : Switch.names.lookup (String.ofList (cs.takeWhile (· != '='))) with
  | none =>
    simp only [hname] at h
    exact absurd h.symm husable
  | some w =>
    have hbefore : cs.takeWhile (· != '=') = w.name.toList := by
      rw [← Switch.lookup_names.1 hname, String.toList_ofList]
    rw [hbefore] at hsplit
    cases hbehind : cs.dropWhile (· != '=') with
    | nil =>
      rw [hbehind, List.append_nil] at hsplit
      have heq : text = "--" ++ w.name := by
        rw [← String.toList_inj, htext, ← hsplit, String.toList_append]
        rfl
      simp only [hname, hbehind] at h
      exact h ▸ heq ▸ .long w
    | cons e tail =>
      obtain rfl : e = '=' := by
        have hstops := List.head?_dropWhile_not (· != '=') cs
        simpa [hbehind] using hstops
      rw [hbehind] at hsplit
      simp only [hname, hbehind] at h
      cases w with
      | setting s =>
        have heq : text = "--" ++ s.name ++ "=" ++ String.ofList tail := by
          rw [← String.toList_inj, htext, ← hsplit]
          simp [Switch.name]
        exact h ▸ heq ▸ .longWith s _
      | _ => exact absurd h.symm husable

theorem Argument.spelt_of_short {a : Argument} {c : Char} {cs : List Char}
    (htext : text.toList = '-' :: c :: cs) (h : Argument.short c cs = a)
    (husable : a ≠ .stop .usage) : a.Spelt text := by
  unfold Argument.short at h
  cases hletter : Switch.letters.lookup c with
  | none =>
    simp only [hletter] at h
    exact absurd h.symm husable
  | some w =>
    have hc := Switch.lookup_letters.1 hletter
    rcases cs with _ | ⟨e, tail⟩
    · have heq : text = "-" ++ .singleton c := by
        rw [← String.toList_inj, htext]
        simp
      simp only [hletter] at h
      exact h ▸ heq ▸ .short hc
    · have heq : text = "-" ++ .singleton c ++ String.ofList (e :: tail) := by
        rw [← String.toList_inj, htext]
        simp
      cases w with
      | setting s =>
        by_cases hequals : e = '='
        · subst hequals
          have heq' : text = "-" ++ .singleton c ++ "=" ++ String.ofList tail := by
            rw [← String.toList_inj, htext]
            simp
          simp only [hletter, Switch.given] at h
          exact h ▸ heq' ▸ .shortWith hc _
        · have hgiven : Argument.given s (String.ofList (e :: tail)) = a := by
            simpa [hletter, Switch.given, hequals] using h
          refine hgiven ▸ heq ▸ .attached hc ?_ ?_
          · simp
          · simpa using hequals
      | flag f => cases hc
      | help =>
        cases hc
        simp only [hletter, Switch.argument] at h
        exact h ▸ heq ▸ .help _
      | version =>
        cases hc
        simp only [hletter, Switch.argument] at h
        exact h ▸ heq ▸ .version _

/-- An argument that is read is spelt as such. -/
theorem Argument.spelt_of_read {a : Argument} (h : Argument.read text = a)
    (husable : a ≠ .stop .usage) : a.Spelt text := by
  unfold Argument.read at h
  split at h
  case h_1 htext =>
    have heq : text = "--" := String.toList_inj.1 htext
    exact h ▸ heq ▸ .terminator
  case h_2 cs _ htext => exact Argument.spelt_of_long htext h husable
  case h_3 c cs _ _ htext => exact Argument.spelt_of_short htext h husable
  case h_4 => exact absurd h.symm husable

theorem Argument.read_of_spelt {a : Argument} (h : a.Spelt text) : Argument.read text = a := by
  cases h with
  | long w =>
    rw [Argument.read_long (by simp) w.name_chars.1, Argument.long_name]
  | longWith s text =>
    have htext : ("--" ++ s.name ++ "=" ++ text).toList =
        '-' :: '-' :: ((Switch.setting s).name.toList ++ '=' :: text.toList) := by
      simp [Switch.name]
    rw [Argument.read_long htext (by simp), Argument.long_name_with, Switch.given,
      String.ofList_toList]
  | @short w c hc =>
    rw [Argument.read_short (by simp; rfl) (Switch.letter_ne_dash hc)]
    simp only [Argument.short, Switch.lookup_letters.2 hc]
  | @shortWith s c hc text =>
    have htext : ("-" ++ String.singleton c ++ "=" ++ text).toList =
        '-' :: c :: '=' :: text.toList := by
      simp
    have hfound : Switch.letters.lookup c = some (.setting s) := Switch.lookup_letters.2 hc
    rw [Argument.read_short htext (Switch.letter_ne_dash (w := .setting s) hc)]
    simp only [Argument.short, hfound, Switch.given, String.ofList_toList]
  | @attached s c hc text hany hequals =>
    have htext : ("-" ++ String.singleton c ++ text).toList = '-' :: c :: text.toList := by
      simp
    have hfound : Switch.letters.lookup c = some (.setting s) := Switch.lookup_letters.2 hc
    rw [Argument.read_short htext (Switch.letter_ne_dash (w := .setting s) hc)]
    have hchars : text.toList ≠ [] := fun hnil => hany (String.toList_eq_nil_iff.1 hnil)
    obtain ⟨e, tail, hchars⟩ := List.exists_cons_of_ne_nil hchars
    have hfirst : e ≠ '=' := fun heq => hequals tail (heq ▸ hchars)
    rw [← String.ofList_toList (s := text), hchars]
    simp [Argument.short, hfound, Switch.given, hfirst]
  | help tail =>
    have htext : ("-h" ++ tail).toList = '-' :: 'h' :: tail.toList := by simp
    have hfound : Switch.letters.lookup 'h' = some .help := rfl
    rw [Argument.read_short htext (by decide)]
    cases tail.toList <;> simp only [Argument.short, hfound, Switch.argument]
  | version tail =>
    have htext : ("-V" ++ tail).toList = '-' :: 'V' :: tail.toList := by simp
    have hfound : Switch.letters.lookup 'V' = some .version := rfl
    rw [Argument.read_short htext (by decide)]
    cases tail.toList <;> simp only [Argument.short, hfound, Switch.argument]
  | terminator => rfl

/-- An argument is read as what it is spelt as. -/
theorem Argument.read_eq_iff {a : Argument} (husable : a ≠ .stop .usage) :
    Argument.read text = a ↔ a.Spelt text :=
  ⟨fun h => Argument.spelt_of_read h husable, Argument.read_of_spelt⟩

theorem Argument.eq_of_terminator (h : Argument.Spelt .terminator text) : text = "--" := by
  generalize ha : Argument.terminator = a at h
  cases h with
  | terminator => rfl
  | long w => cases w <;> cases ha
  | @short w _ _ => cases w <;> cases ha
  | _ => cases ha

/-- Nothing that cannot be used is a request. -/
theorem Argument.not_spelt_usage : ¬Argument.Spelt (.stop .usage) text := by
  intro h
  generalize ha : Argument.stop .usage = a at h
  cases h with
  | long w => cases w <;> cases ha
  | @short w _ _ => cases w <;> cases ha
  | _ => cases ha

/-! ## Items -/

/-- An option as it is given: a flag, or a setting with a text. -/
inductive Item where
  | flag (f : Flag)
  | setting (s : Setting) (text : String)
deriving DecidableEq, Repr

/-- The switch of an item. -/
def Item.switch : Item → Switch
  | .flag f => .flag f
  | .setting s _ => .setting s

/-- How an item is spelt: in one argument, or in two, of which the second is no other option. -/
inductive Item.Spelt : Item → List String → Prop
  | flag {f : Flag} {text : String} (h : Argument.Spelt (.flag f) text) : Spelt (.flag f) [text]
  | given {s : Setting} {value text : String} (h : Argument.Spelt (.given s value) text) :
      Spelt (.setting s value) [text]
  | wanting {s : Setting} {value text : String} (h : Argument.Spelt (.wanting s) text)
      (hvalue : isValue value = true) : Spelt (.setting s value) [text, value]

theorem Item.Spelt.flag_of_read {f : Flag} (h : Argument.read text = .flag f) :
    Item.Spelt (.flag f) [text] :=
  .flag ((Argument.read_eq_iff (by simp)).1 h)

theorem Item.Spelt.given_of_read {s : Setting} {value : String}
    (h : Argument.read text = .given s value) : Item.Spelt (.setting s value) [text] :=
  .given ((Argument.read_eq_iff (by simp)).1 h)

theorem Item.Spelt.wanting_of_read {s : Setting} {value : String}
    (h : Argument.read text = .wanting s) (hvalue : isValue value = true) :
    Item.Spelt (.setting s value) [text, value] :=
  .wanting ((Argument.read_eq_iff (by simp)).1 h) hvalue

/-- How items are spelt: one behind the other. -/
inductive ItemsSpelt : List Item → List String → Prop
  | nil : ItemsSpelt [] []
  | cons {i : Item} {items : List Item} {texts rest : List String} (h : i.Spelt texts)
      (hrest : ItemsSpelt items rest) : ItemsSpelt (i :: items) (texts ++ rest)

/-- Takes up an item. -/
def Options.take (o : Options) : Item → Option Options
  | .flag f => o.raise f
  | .setting s text => o.give s text

theorem Options.readFrom_item {i : Item} {texts : List String} (h : i.Spelt texts)
    (rest : List String) (o : Options) :
    Options.readFrom (texts ++ rest) o = (orUsage (o.take i)).bind (Options.readFrom rest) := by
  cases h with
  | flag h =>
    simp only [List.singleton_append, Options.readFrom, Argument.read_of_spelt h, Options.take]
  | given h =>
    simp only [List.singleton_append, Options.readFrom, Argument.read_of_spelt h, Options.take]
  | wanting h hvalue =>
    simp only [List.cons_append, List.nil_append, Options.readFrom, Argument.read_of_spelt h,
      hvalue, if_true, Options.take]

/-- Items at the front of arguments are taken up one after the other. -/
theorem Options.readFrom_append {items : List Item} (h : ItemsSpelt items front)
    (rest : List String) (o : Options) :
    Options.readFrom (front ++ rest) o =
      (orUsage (items.foldlM Options.take o)).bind (Options.readFrom rest) := by
  induction h generalizing o with
  | nil => rfl
  | @cons i items texts front hi _ ih =>
    rw [List.append_assoc, Options.readFrom_item hi, List.foldlM_cons]
    cases o.take i with
    | none => rfl
    | some o' => exact ih o'

theorem Item.Spelt.length_pos {i : Item} {texts : List String} (h : i.Spelt texts) :
    0 < texts.length := by
  cases h <;> simp

/-- What arguments begin with: an item, a request, the terminator behind which nothing may follow,
or something that cannot be used. -/
theorem arguments_cases (arguments : List String) :
    (arguments = [] ∨ arguments = ["--"]) ∨
    (∃ s text rest, arguments = text :: rest ∧ Argument.Spelt (.stop s) text) ∨
    (∃ (i : Item) (texts rest : List String), i.Spelt texts ∧ arguments = texts ++ rest) ∨
    ∀ o, Options.readFrom arguments o = .error .usage := by
  rcases arguments with _ | ⟨text, rest⟩
  · exact .inl (.inl rfl)
  · cases hread : Argument.read text with
    | flag f => exact .inr (.inr (.inl ⟨_, _, rest, .flag_of_read hread, rfl⟩))
    | given s value => exact .inr (.inr (.inl ⟨_, _, rest, .given_of_read hread, rfl⟩))
    | wanting s =>
      rcases rest with _ | ⟨value, rest⟩
      · exact .inr (.inr (.inr fun o => by simp only [Options.readFrom, hread]))
      · by_cases hvalue : isValue value = true
        · exact .inr (.inr (.inl ⟨_, _, rest, .wanting_of_read hread hvalue, rfl⟩))
        · exact .inr (.inr (.inr fun o => by simp only [Options.readFrom, hread, hvalue]; rfl))
    | terminator =>
      obtain rfl := Argument.eq_of_terminator ((Argument.read_eq_iff (by simp)).1 hread)
      rcases rest with _ | ⟨next, rest⟩
      · exact .inl (.inr rfl)
      · exact .inr (.inr (.inr fun o => by simp only [Options.readFrom, hread]; rfl))
    | stop s =>
      by_cases husage : s = .usage
      · exact .inr (.inr (.inr fun o => by simp only [Options.readFrom, hread, husage]))
      · have hspelt := (Argument.read_eq_iff fun heq => husage (Argument.stop.inj heq)).1 hread
        exact .inr (.inl ⟨s, text, rest, rfl, hspelt⟩)

/-- Reading arguments takes up the items in front of them, and then it comes to their end, to a
request, or to something that cannot be used. -/
theorem Options.readFrom_cases (arguments : List String) (o : Options) :
    Options.readFrom arguments o = .error .usage ∨
    ∃ items front rest o', arguments = front ++ rest ∧ ItemsSpelt items front ∧
      items.foldlM Options.take o = some o' ∧
      ((rest = [] ∨ rest = ["--"]) ∧ Options.readFrom arguments o = .ok o' ∨
        ∃ s text rest', rest = text :: rest' ∧ Argument.Spelt (.stop s) text ∧
          Options.readFrom arguments o = .error s) := by
  induction hn : arguments.length using Nat.strong_induction_on generalizing arguments o with
  | _ n ih =>
    rcases arguments_cases arguments with hend | ⟨s, text, rest, rfl, hspelt⟩ |
      ⟨i, texts, rest, hspelt, rfl⟩ | hunusable
    · refine .inr ⟨[], [], arguments, o, rfl, .nil, rfl, .inl ⟨hend, ?_⟩⟩
      rcases hend with rfl | rfl <;> rfl
    · refine .inr ⟨[], [], text :: rest, o, rfl, .nil, rfl, .inr ⟨s, text, rest, rfl, hspelt, ?_⟩⟩
      simp only [Options.readFrom, Argument.read_of_spelt hspelt]
    · have hpos := hspelt.length_pos
      rw [Options.readFrom_item hspelt]
      cases htake : o.take i with
      | none => exact .inl rfl
      | some o' =>
        have hshorter : rest.length < n := by
          rw [← hn, List.length_append]
          omega
        rcases ih _ hshorter rest o' rfl with
          husage | ⟨items, front, rest', o'', rfl, hitems, hfold, hres⟩
        · exact .inl husage
        · refine .inr ⟨i :: items, texts ++ front, rest', o'', (List.append_assoc ..).symm,
            .cons hspelt hitems, ?_, hres⟩
          rw [List.foldlM_cons, htake]
          exact hfold
    · exact .inl (hunusable o)

/-! ## Options of items -/

/-- What a setting holds. -/
abbrev Setting.Value : Setting → Type
  | .preset | .config | .marker | .saveTo => String
  | .cores | .samples | .maxAttempts | .baseline | .ceiling | .tickPeriod => UInt64

/-- What a text stands for as the value of a setting. -/
def Setting.read : (s : Setting) → String → Option s.Value
  | .preset, text => some text
  | .config, text => readPath text
  | .cores, text => readCount text
  | .samples, text => readCount text
  | .maxAttempts, text => readCount text
  | .baseline, text => readCount text
  | .ceiling, text => readCount text
  | .tickPeriod, text => readCount text
  | .marker, text => some text
  | .saveTo, text => readPath text

/-- What options have in the place of a setting. -/
def Options.value? (o : Options) : (s : Setting) → Option s.Value
  | .preset => o.preset
  | .config => o.config
  | .cores => o.cores
  | .samples => o.samples
  | .maxAttempts => o.maxAttempts
  | .baseline => o.baseline
  | .ceiling => o.ceiling
  | .tickPeriod => o.tickPeriod
  | .marker => o.marker
  | .saveTo => o.saveTo

/-- Whether options have a flag raised. -/
def Options.raised (o : Options) : Flag → Bool
  | .interfere => o.interfere
  | .sentinel => o.sentinel
  | .unpinned => o.unpinned
  | .unfiltered => o.unfiltered
  | .json => o.json

/-- Options are made of what they have in their places. -/
theorem Options.eq_of_places (hvalues : ∀ s, o.value? s = o'.value? s)
    (hflags : ∀ f, o.raised f = o'.raised f) : o = o' := by
  cases o
  cases o'
  rw [Options.mk.injEq]
  exact ⟨hvalues .preset, hvalues .config, hvalues .cores, hvalues .samples, hvalues .maxAttempts,
    hvalues .baseline, hvalues .ceiling, hvalues .tickPeriod, hvalues .marker, hvalues .saveTo,
    hflags .interfere, hflags .sentinel, hflags .unpinned, hflags .unfiltered, hflags .json⟩

/-- Options with something in the place of a setting. -/
def Options.put (o : Options) : (s : Setting) → Option s.Value → Options
  | .preset, v => { o with preset := v }
  | .config, v => { o with config := v }
  | .cores, v => { o with cores := v }
  | .samples, v => { o with samples := v }
  | .maxAttempts, v => { o with maxAttempts := v }
  | .baseline, v => { o with baseline := v }
  | .ceiling, v => { o with ceiling := v }
  | .tickPeriod, v => { o with tickPeriod := v }
  | .marker, v => { o with marker := v }
  | .saveTo, v => { o with saveTo := v }

/-- Options with a flag raised. -/
def Options.lift (o : Options) : Flag → Options
  | .interfere => { o with interfere := true }
  | .sentinel => { o with sentinel := true }
  | .unpinned => { o with unpinned := true }
  | .unfiltered => { o with unfiltered := true }
  | .json => { o with json := true }

theorem Options.value?_put_self (o : Options) (s : Setting) (v : Option s.Value) :
    (o.put s v).value? s = v := by
  cases s <;> rfl

theorem Options.value?_put_other (o : Options) {s s' : Setting} (hne : s' ≠ s)
    (v : Option s.Value) : (o.put s v).value? s' = o.value? s' := by
  cases s <;> cases s' <;> first | rfl | exact absurd rfl hne

@[simp] theorem Options.raised_put (o : Options) (s : Setting) (v : Option s.Value) (f : Flag) :
    (o.put s v).raised f = o.raised f := by
  cases s <;> rfl

@[simp] theorem Options.value?_lift (o : Options) (f : Flag) (s : Setting) :
    (o.lift f).value? s = o.value? s := by
  cases f <;> rfl

@[simp] theorem Options.raised_lift (o : Options) (f f' : Flag) :
    (o.lift f).raised f' = true ↔ f' = f ∨ o.raised f' = true := by
  cases f <;> cases f' <;> simp [Options.lift, Options.raised]

theorem fillOnce_eq_some_iff {α : Type} {slot value : Option α} {store : Option α → Options} :
    fillOnce slot value store = some o ↔
      slot = none ∧ ∃ v, value = some v ∧ store (some v) = o := by
  unfold fillOnce
  cases slot <;> cases value <;> simp

/-- A setting is given once, with a text that can be read. -/
theorem Options.give_eq_some_iff {s : Setting} :
    o.give s text = some o' ↔
      o.value? s = none ∧ ∃ v, s.read text = some v ∧ o.put s (some v) = o' := by
  rw [← fillOnce_eq_some_iff]
  cases s <;> rfl

/-- A flag is raised once. -/
theorem Options.raise_eq_some_iff {f : Flag} :
    o.raise f = some o' ↔ o.raised f = false ∧ o.lift f = o' := by
  have hraise : o.raise f = if o.raised f then none else some (o.lift f) := by
    cases f <;> rfl
  rw [hraise, Option.ite_none_left_eq_some, Bool.not_eq_true, Option.some_inj]

/-! ## What items say -/

/-- A value is given to a setting among items. -/
def Setting.Given (s : Setting) (items : List Item) (v : s.Value) : Prop :=
  ∃ text, .setting s text ∈ items ∧ s.read text = some v

/-- Whether the text of an item can be read. -/
def Item.Readable : Item → Prop
  | .flag _ => True
  | .setting s text => ∃ v, s.read text = some v

/-- Items of which none is there twice and all texts can be read. -/
structure Usable (items : List Item) : Prop where
  distinct : (items.map Item.switch).Nodup
  readable : ∀ i ∈ items, i.Readable

/-- Options have the values that are given among items, and the flags that are there, and nothing
else. -/
structure Options.Holds (o : Options) (items : List Item) : Prop where
  values : ∀ s v, o.value? s = some v ↔ s.Given items v
  flags : ∀ f, o.raised f = true ↔ .flag f ∈ items

theorem Options.holds_empty : Options.empty.Holds [] where
  values s v := by cases s <;> simp [Options.value?, Options.empty, Setting.Given]
  flags f := by cases f <;> simp [Options.raised, Options.empty]

theorem usable_nil : Usable [] := ⟨by simp, by simp⟩

theorem usable_snoc {items : List Item} {i : Item} :
    Usable (items ++ [i]) ↔ Usable items ∧ i.switch ∉ items.map Item.switch ∧ i.Readable := by
  constructor
  · rintro ⟨hdistinct, hreadable⟩
    rw [List.map_append, List.nodup_append] at hdistinct
    obtain ⟨hitems, -, hnew⟩ := hdistinct
    exact ⟨⟨hitems, fun x hx => hreadable x (by simp [hx])⟩,
      fun hmem => hnew _ hmem _ (by simp) rfl, hreadable i (by simp)⟩
  · rintro ⟨⟨hdistinct, hreadable⟩, hnew, hi⟩
    constructor
    · rw [List.map_append, List.nodup_append]
      refine ⟨hdistinct, by simp, fun x hx y hy heq => ?_⟩
      rw [List.map_singleton, List.mem_singleton] at hy
      exact hnew (hy ▸ heq ▸ hx)
    · intro x hx
      rcases List.mem_append.1 hx with hx | hx
      · exact hreadable x hx
      · exact List.mem_singleton.1 hx ▸ hi

theorem Usable.of_append {items more : List Item} (h : Usable (items ++ more)) : Usable items where
  distinct := (List.map_append ▸ h.distinct).of_append_left
  readable i hi := h.readable i (List.mem_append_left more hi)

section Holds

variable {items : List Item} (h : o.Holds items)

include h

theorem Options.Holds.unique (h' : o'.Holds items) : o = o' :=
  Options.eq_of_places (fun s => Option.ext fun v => (h.values s v).trans (h'.values s v).symm)
    fun f => Bool.eq_iff_iff.2 ((h.flags f).trans (h'.flags f).symm)

/-- The place of a setting is empty as long as nothing is given to it. -/
theorem Options.Holds.value?_eq_none_iff (husable : Usable items) {s : Setting} :
    o.value? s = none ↔ Switch.setting s ∉ items.map Item.switch := by
  rw [Option.eq_none_iff_forall_ne_some]
  constructor
  · intro hnone hmem
    obtain ⟨i, hi, hswitch⟩ := List.mem_map.1 hmem
    cases i with
    | flag f => cases hswitch
    | setting s' text =>
      cases hswitch
      obtain ⟨v, hv⟩ := husable.readable _ hi
      exact hnone v ((h.values s v).2 ⟨text, hi, hv⟩)
  · intro hnew v hv
    obtain ⟨text, hmem, -⟩ := (h.values s v).1 hv
    exact hnew (List.mem_map.2 ⟨_, hmem, rfl⟩)

theorem Options.Holds.raised_eq_false_iff {f : Flag} :
    o.raised f = false ↔ Switch.flag f ∉ items.map Item.switch := by
  rw [← Bool.not_eq_true, h.flags, not_iff_not, List.mem_map]
  constructor
  · exact fun hmem => ⟨_, hmem, rfl⟩
  · rintro ⟨i, hi, hswitch⟩
    cases i with
    | flag f' =>
      cases hswitch
      exact hi
    | setting s text => cases hswitch

/-- One more setting. -/
theorem Options.Holds.put {s : Setting} {v : s.Value} (hnone : o.value? s = none)
    (hv : s.read text = some v) : (o.put s (some v)).Holds (items ++ [.setting s text]) := by
  constructor
  case values =>
    intro s' v'
    by_cases hs : s' = s
    · subst hs
      rw [Options.value?_put_self]
      constructor
      · rintro ⟨⟩
        exact ⟨text, by simp, hv⟩
      · rintro ⟨text', hmem, hv'⟩
        rcases List.mem_append.1 hmem with hmem | hmem
        · have hsome := (h.values s' v').2 ⟨text', hmem, hv'⟩
          rw [hnone] at hsome
          cases hsome
        · cases List.mem_singleton.1 hmem
          exact hv.symm.trans hv'
    · rw [Options.value?_put_other o hs, h.values]
      simp [Setting.Given, hs]
  case flags =>
    intro f
    rw [Options.raised_put, h.flags]
    simp

/-- One more flag. -/
theorem Options.Holds.lift (f : Flag) : (o.lift f).Holds (items ++ [.flag f]) := by
  constructor
  case values =>
    intro s v
    rw [Options.value?_lift, h.values]
    simp [Setting.Given]
  case flags =>
    intro f'
    rw [Options.raised_lift, h.flags]
    simp [or_comm]

/-- An item is taken up if it can be used behind those that were. -/
theorem Options.Holds.exists_take (husable : Usable items) {i : Item}
    (hi : Usable (items ++ [i])) : ∃ o', o.take i = some o' ∧ o'.Holds (items ++ [i]) := by
  obtain ⟨-, hnew, hreadable⟩ := usable_snoc.1 hi
  cases i with
  | flag f =>
    exact ⟨_, Options.raise_eq_some_iff.2 ⟨h.raised_eq_false_iff.2 hnew, rfl⟩, h.lift f⟩
  | setting s text =>
    obtain ⟨v, hv⟩ := hreadable
    have hnone := (h.value?_eq_none_iff husable).2 hnew
    exact ⟨_, Options.give_eq_some_iff.2 ⟨hnone, v, hv, rfl⟩, h.put hnone hv⟩

/-- An item that is taken up can be used behind those that were, and is in its place then. -/
theorem Options.Holds.of_take (husable : Usable items) {i : Item} (htake : o.take i = some o') :
    Usable (items ++ [i]) ∧ o'.Holds (items ++ [i]) := by
  rw [usable_snoc]
  cases i with
  | flag f =>
    obtain ⟨hnot, rfl⟩ := Options.raise_eq_some_iff.1 htake
    exact ⟨⟨husable, h.raised_eq_false_iff.1 hnot, trivial⟩, h.lift f⟩
  | setting s text =>
    obtain ⟨hnone, v, hv, rfl⟩ := Options.give_eq_some_iff.1 htake
    exact ⟨⟨husable, (h.value?_eq_none_iff husable).1 hnone, v, hv⟩, h.put hnone hv⟩

end Holds

/-- Items that can be used together are taken up one after the other. -/
theorem Options.Holds.exists_foldlM_take {items : List Item} (h : o.Holds items)
    {more : List Item} (husable : Usable (items ++ more)) :
    ∃ o', more.foldlM Options.take o = some o' ∧ o'.Holds (items ++ more) := by
  induction more generalizing o items with
  | nil => exact ⟨o, rfl, (List.append_nil items).symm ▸ h⟩
  | cons i more ih =>
    rw [List.append_cons] at husable ⊢
    obtain ⟨o₁, htake, h₁⟩ := h.exists_take husable.of_append.of_append husable.of_append
    obtain ⟨o', hmore, h'⟩ := ih h₁ husable
    refine ⟨o', ?_, h'⟩
    rw [List.foldlM_cons, htake]
    exact hmore

/-- Items that are taken up one after the other can be used together, and the options hold them
all. -/
theorem Options.Holds.of_foldlM_take {items : List Item} (h : o.Holds items)
    (husable : Usable items) {more : List Item} (hmore : more.foldlM Options.take o = some o') :
    Usable (items ++ more) ∧ o'.Holds (items ++ more) := by
  induction more generalizing o items with
  | nil =>
    cases hmore
    exact (List.append_nil items).symm ▸ ⟨husable, h⟩
  | cons i more ih =>
    rw [List.foldlM_cons, Option.bind_eq_bind, Option.bind_eq_some_iff] at hmore
    obtain ⟨o₁, htake, hmore⟩ := hmore
    obtain ⟨husable₁, h₁⟩ := h.of_take husable htake
    rw [List.append_cons]
    exact ih h₁ husable₁ hmore

theorem Options.foldlM_take_empty {items : List Item} :
    items.foldlM Options.take .empty = some o ↔ Usable items ∧ o.Holds items := by
  constructor
  · exact Options.holds_empty.of_foldlM_take usable_nil
  · rintro ⟨husable, h⟩
    obtain ⟨o', hfold, h'⟩ := Options.holds_empty.exists_foldlM_take husable
    exact hfold.trans (congrArg some (h'.unique h))

/-! ## Commands -/

/-- Arguments spell items that can be used, and behind these there may be a terminator. -/
structure Commands (arguments : List String) (items : List Item) : Prop where
  spelt : ∃ front rest, arguments = front ++ rest ∧ ItemsSpelt items front ∧
    (rest = [] ∨ rest = ["--"])
  usable : Usable items

/-- Arguments ask for help or for the version, behind items that can be used. -/
def Requests (arguments : List String) (s : Stop) : Prop :=
  ∃ items front text rest, arguments = front ++ text :: rest ∧ ItemsSpelt items front ∧
    Usable items ∧ Argument.Spelt (.stop s) text

/-- Arguments are read as options exactly if they spell items that can be used, and then the options
have everything that these say in its place. -/
theorem Options.read_eq_ok_iff :
    Options.read arguments = .ok o ↔ ∃ items, Commands arguments items ∧ o.Holds items := by
  constructor
  · intro h
    rcases Options.readFrom_cases arguments .empty with husage |
      ⟨items, front, rest, o', heq, hspelt, hfold, ⟨hend, hok⟩ | ⟨s, _, _, _, _, hstop⟩⟩
    · cases h.symm.trans husage
    · cases h.symm.trans hok
      obtain ⟨husable, hholds⟩ := Options.foldlM_take_empty.1 hfold
      exact ⟨items, ⟨⟨front, rest, heq, hspelt, hend⟩, husable⟩, hholds⟩
    · cases h.symm.trans hstop
  · rintro ⟨items, ⟨⟨front, rest, rfl, hspelt, hend⟩, husable⟩, hholds⟩
    have hfold := Options.foldlM_take_empty.2 ⟨husable, hholds⟩
    rw [Options.read, Options.readFrom_append hspelt, hfold]
    rcases hend with rfl | rfl <;> rfl

theorem Commands.exists_read {items : List Item} (h : Commands arguments items) :
    ∃ o, Options.read arguments = .ok o ∧ o.Holds items := by
  obtain ⟨o, -, hholds⟩ := Options.holds_empty.exists_foldlM_take h.usable
  exact ⟨o, Options.read_eq_ok_iff.2 ⟨items, h, hholds⟩, hholds⟩

/-- Help and the version are granted exactly on request. -/
theorem Options.read_eq_error_iff {s : Stop} (hs : s ≠ .usage) :
    Options.read arguments = .error s ↔ Requests arguments s := by
  constructor
  · intro h
    rcases Options.readFrom_cases arguments .empty with husage |
      ⟨items, front, rest, o', heq, hspelt, hfold, ⟨_, hok⟩ | ⟨s', text, rest', rfl, hstop, herror⟩⟩
    · cases h.symm.trans husage
      exact absurd rfl hs
    · cases h.symm.trans hok
    · cases h.symm.trans herror
      exact ⟨items, front, text, rest', heq, hspelt, (Options.foldlM_take_empty.1 hfold).1, hstop⟩
  · rintro ⟨items, front, text, rest, rfl, hspelt, husable, hstop⟩
    obtain ⟨o, hfold, -⟩ := Options.holds_empty.exists_foldlM_take husable
    rw [Options.read, Options.readFrom_append hspelt, hfold]
    simp only [orUsage, Except.bind, Options.readFrom, Argument.read_of_spelt hstop]

end LatencyGauge
