/-
Reading records back. The members of a record that was written go into the slots of its fields, each
into its own because no two fields have one name; and every simple value is read back from what is
written for it.
-/
import LatencyGauge.Json.Codec
import LatencyGauge.Proofs.Json.Spelling

namespace LatencyGauge.Json

/-! ## Slots -/

/-- A member fills the slot of its name, behind slots of other names. -/
theorem fill_behind {key : String} {v : Value} {before after : List String}
    {filled slots : List Slot} (hbefore : key ∉ before) (hlength : filled.length = before.length) :
    fill key v (before ++ key :: after) (filled ++ none :: slots) =
      some (filled ++ some v :: slots) := by
  induction before generalizing filled with
  | nil =>
    obtain rfl := List.length_eq_zero_iff.1 hlength
    simp [fill]
  | cons name before ih =>
    obtain ⟨slot, filled, rfl⟩ :=
      List.exists_cons_of_length_pos (by simp at hlength; omega : 0 < filled.length)
    rw [List.mem_cons, not_or] at hbefore
    simp [fill, Ne.symm hbefore.1, ih hbefore.2 (by simpa using hlength)]

/-- The members of a record, in the order of its fields. -/
def members (names : List String) (vs : List Value) : List (Text × Value) :=
  (names.zip vs).map fun (k, v) => (some k, v)

theorem fillAll_behind {before names : List String} (filled : List Slot) {vs : List Value}
    (hnames : (before ++ names).Nodup) (hfilled : filled.length = before.length)
    (hvs : vs.length = names.length) :
    fillAll (before ++ names) (members names vs) (filled ++ names.map fun _ => none) =
      some (filled ++ vs.map some) := by
  induction names generalizing before filled vs with
  | nil =>
    obtain rfl := List.length_eq_zero_iff.1 hvs
    simp [members, fillAll]
  | cons name names ih =>
    obtain ⟨v, vs, rfl⟩ := List.exists_cons_of_length_pos (by simp at hvs; omega : 0 < vs.length)
    have hbefore : name ∉ before := by
      have := List.nodup_append.1 hnames
      intro hmem
      exact this.2.2 name hmem name (by simp) rfl
    have hnames' : (before ++ [name] ++ names).Nodup := by simpa using hnames
    have hrest := ih (filled ++ [some v]) hnames' (by simpa using hfilled)
      (show vs.length = names.length by simpa using hvs)
    simp only [members, List.zip_cons_cons, List.map_cons, fillAll, fill_behind hbefore hfilled,
      Option.bind_some]
    simpa [members] using hrest

/-- A record that was written has all its slots filled. -/
theorem slotsOf_record {names : List String} (hnames : names.Nodup) (defaults : Bool)
    (vs : List Value) (hvs : vs.length = names.length) :
    slotsOf names defaults (.record (names.zip vs)) = some (vs.map some) := by
  have h : ([] ++ names).Nodup := hnames
  exact fillAll_behind [] h rfl hvs

/-- What is read first is there for what is read from it. -/
theorem read_then {α β : Type} {first : Option α} {a : α} {rest : α → Option β} {b : β}
    (hfirst : first = some a) (hrest : rest a = some b) : first >>= rest = some b := by
  rw [hfirst]
  exact hrest

/-! ## Simple values -/

variable (p : Place)

@[simp]
theorem word_ofWord (n : UInt64) : word p (.ofWord n) = some n := Numeral.word?_ofNat n

@[simp]
theorem word32_ofNat (n : UInt32) : word32 p (.ofNat n.toNat) = some n := by
  have hlt := n.toNat_lt
  simpa [word32, Value.ofNat, Numeral.nat?, Numeral.ofNat, Number.spelled_digits] using hlt

@[simp]
theorem boolean_bool (b : Bool) : boolean p (.bool b) = some b := rfl

theorem nullable_some {α : Type} {read : Reader α} {v : Value} {a : α} (hnull : v ≠ .null)
    (hread : read p v = some a) : nullable read p v = some (some a) := by
  cases v <;> simp_all [nullable]

@[simp]
theorem required_some {α : Type} (read : Reader α) (v : Value) :
    required read p (some v) = read p.inside v := rfl

/-! ## Numbers -/

/-- The text of a number reads back as the same number. -/
def FloatReadsBack (x : Float) : Prop := decode float (Value.ofFloat x).compact = some x

theorem FloatReadsBack.float_eq {x : Float} (h : FloatReadsBack x) :
    float p (.ofFloat x) = some x := by
  rw [FloatReadsBack, decode, Value.parse_compact (Value.ofFloat_proper x), Option.bind_some] at h
  cases hv : Value.ofFloat x <;> rw [hv] at h <;> exact h

end LatencyGauge.Json
