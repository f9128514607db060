/-
Values that can be kept whole, and tagged choices. What is written for a record or a list can be
kept if its parts can and it is not nested too deep; counts can always be kept, and so can numbers
that are read back. Any value with usable numbers and texts can be kept if its nesting allows. A
tagged choice that was written with its tag first gives its variant the other members to read, and
every list of values is read back item by item.
-/
import LatencyGauge.Proofs.Json.Records

namespace LatencyGauge.Json

/-! ## Written values -/

section Kept

variable {depth : Nat}

@[simp]
theorem Value.keepable_null : Value.null.keepable depth = true := by rw [Value.keepable]

@[simp]
theorem Value.keepable_bool (b : Bool) : (Value.bool b).keepable depth = true := by
  rw [Value.keepable]

@[simp]
theorem Value.keepable_ofString (s : String) : (Value.ofString s).keepable depth = true := by
  rw [Value.ofString, Value.keepable]
  rfl

theorem Value.keepable_ofNat {n : Nat} (hn : n < 2 ^ 64) :
    (Value.ofNat n).keepable depth = true := by
  rw [Value.ofNat, Value.keepable]
  exact Numeral.float?_ofNat_isSome hn

@[simp]
theorem Value.keepable_ofWord (n : UInt64) : (Value.ofWord n).keepable depth = true :=
  Value.keepable_ofNat n.toNat_lt

/-- A number that is read back is in range. -/
theorem FloatReadsBack.keepable {x : Float} (h : FloatReadsBack x) :
    (Value.ofFloat x).keepable depth = true := by
  have hread := h.float_eq .top
  cases hx : Value.ofFloat x with
  | number n =>
    rw [hx] at hread
    rw [Value.keepable, show n.float? = some x from hread]
    rfl
  | _ =>
    rw [hx] at hread
    exact nomatch hread

theorem FloatReadsBack.ne_null {x : Float} (h : FloatReadsBack x) : Value.ofFloat x ≠ .null := by
  intro hnull
  have hread := h.float_eq .top
  rw [hnull] at hread
  exact nomatch hread

theorem keepableMembers_iff {ms : List (Text × Value)} :
    keepableMembers depth ms = true ↔ ∀ m ∈ ms, m.1.isSome = true ∧ m.2.keepable depth = true := by
  induction ms with
  | nil => simp [keepableMembers]
  | cons m ms ih =>
    obtain ⟨key, v⟩ := m
    simp [keepableMembers, ih, and_assoc]

theorem keepableItems_iff {vs : List Value} :
    keepableItems depth vs = true ↔ ∀ v ∈ vs, v.keepable depth = true := by
  induction vs with
  | nil => simp [keepableItems]
  | cons v vs ih => simp [keepableItems, ih]

theorem Value.keepable_object_iff {ms : List (Text × Value)} :
    (Value.object ms).keepable depth = true ↔
      depth < deepest ∧ ∀ m ∈ ms, m.1.isSome = true ∧ m.2.keepable (depth + 1) = true := by
  rw [Value.keepable, Bool.and_eq_true, decide_eq_true_eq, keepableMembers_iff]

theorem Value.keepable_array_iff {vs : List Value} :
    (Value.array vs).keepable depth = true ↔
      depth < deepest ∧ ∀ v ∈ vs, v.keepable (depth + 1) = true := by
  rw [Value.keepable, Bool.and_eq_true, decide_eq_true_eq, keepableItems_iff]

theorem Value.record_eq (ms : List (String × Value)) :
    Value.record ms = .object (ms.map fun m => (some m.1, m.2)) := rfl

theorem Value.keepable_record_iff {ms : List (String × Value)} :
    (Value.record ms).keepable depth = true ↔
      depth < deepest ∧ ∀ m ∈ ms, m.2.keepable (depth + 1) = true := by
  rw [Value.record, Value.keepable_object_iff, List.forall_mem_map]
  simp

theorem Value.keepable_map {α : Type} {write : α → Value} {xs : List α} (hdepth : depth < deepest)
    (h : ∀ a ∈ xs, (write a).keepable (depth + 1) = true) :
    (Value.array (xs.map write)).keepable depth = true := by
  rw [Value.keepable_array_iff]
  exact ⟨hdepth, by simpa using h⟩

end Kept

theorem Value.map_proper {α : Type} {write : α → Value} {xs : List α}
    (h : ∀ a ∈ xs, (write a).Proper) : (Value.array (xs.map write)).Proper := by
  rw [Value.Proper.array_iff]
  induction xs with
  | nil => simp [ItemsProper, itemTokens, Token.Proper]
  | cons a xs ih =>
    rw [List.forall_mem_cons] at h
    exact ItemsProper.cons_iff.2 ⟨h.1, ih h.2⟩

/-! ## Usable values -/

mutual

/-- How deep the containers of a value are nested. -/
def Value.nesting : Value → Nat
  | .array items => itemsNesting items + 1
  | .object members => membersNesting members + 1
  | _ => 0

/-- The deepest nesting of the items of an array. -/
def itemsNesting : List Value → Nat
  | [] => 0
  | v :: vs => max v.nesting (itemsNesting vs)

/-- The deepest nesting of the members of an object. -/
def membersNesting : List (Text × Value) → Nat
  | [] => 0
  | (_, v) :: ms => max v.nesting (membersNesting ms)

end

/-- A value that is not nested too deep to be kept below `depth` containers. -/
def Value.Shallow (depth : Nat) (v : Value) : Prop := depth + v.nesting ≤ deepest

theorem Value.shallow_of_flat {depth : Nat} {v : Value} (hflat : v.nesting = 0)
    (hdepth : depth ≤ deepest) : v.Shallow depth := by
  rwa [Value.Shallow, hflat]

/-- A token that a kept value may have: a number in range, or a text that is one. -/
def Token.Usable : Token → Prop
  | .number n => n.float?.isSome = true
  | .text t => t.isSome = true
  | _ => True

/-- A value whose numbers are in range and whose texts and keys are texts. -/
def Value.Usable (v : Value) : Prop := ∀ t ∈ v.tokens, t.Usable

mutual

/-- A usable value that is not nested too deep can be kept. -/
theorem Value.Usable.keepable : ∀ {v : Value} {depth : Nat}, v.Usable → v.Shallow depth →
    v.keepable depth = true
  | .null, _, _, _ => Value.keepable_null
  | .bool b, _, _, _ => Value.keepable_bool b
  | .number n, _, h, _ => by
    rw [Value.keepable]
    exact h (.number n) (by simp [Value.tokens])
  | .text t, _, h, _ => by
    rw [Value.keepable]
    exact h (.text t) (by simp [Value.tokens])
  | .array [], depth, _, hdepth => by
    simp only [Value.Shallow, Value.nesting, itemsNesting] at hdepth
    exact Value.keepable_array_iff.2 ⟨hdepth, by simp⟩
  | .array (v :: vs), depth, h, hdepth => by
    simp only [Value.Shallow, Value.nesting, itemsNesting] at hdepth
    simp only [Value.Usable, Value.tokens, List.forall_mem_cons, List.forall_mem_append] at h
    rw [Value.keepable, keepableItems]
    have hfirst : v.keepable (depth + 1) = true :=
      Value.Usable.keepable h.2.1 (by unfold Value.Shallow; omega)
    have hrest : keepableItems (depth + 1) vs = true :=
      keepableItems_of_usable vs h.2.2 (by omega)
    simp only [hfirst, hrest, Bool.and_true, decide_eq_true_eq]
    omega
  | .object [], depth, _, hdepth => by
    simp only [Value.Shallow, Value.nesting, membersNesting] at hdepth
    exact Value.keepable_object_iff.2 ⟨hdepth, by simp⟩
  | .object ((k, v) :: ms), depth, h, hdepth => by
    simp only [Value.Shallow, Value.nesting, membersNesting] at hdepth
    simp only [Value.Usable, Value.tokens, List.forall_mem_cons, List.forall_mem_append] at h
    obtain ⟨-, hkey, -, hvalue, hmembers⟩ := h
    rw [Value.keepable, keepableMembers]
    have hfirst : v.keepable (depth + 1) = true :=
      Value.Usable.keepable hvalue (by unfold Value.Shallow; omega)
    have hrest : keepableMembers (depth + 1) ms = true :=
      keepableMembers_of_usable ms hmembers (by omega)
    simp only [hfirst, hrest, show k.isSome = true from hkey, Bool.and_true, decide_eq_true_eq]
    omega

theorem keepableItems_of_usable : ∀ (vs : List Value) {depth : Nat},
    (∀ t ∈ itemTokens vs, t.Usable) → depth + itemsNesting vs ≤ deepest →
      keepableItems depth vs = true
  | [], _, _, _ => by rw [keepableItems]
  | v :: vs, depth, h, hdepth => by
    simp only [itemsNesting] at hdepth
    simp only [itemTokens, List.forall_mem_cons, List.forall_mem_append] at h
    rw [keepableItems, Value.Usable.keepable h.2.1 (by unfold Value.Shallow; omega),
      keepableItems_of_usable vs h.2.2 (by omega)]
    rfl

theorem keepableMembers_of_usable : ∀ (ms : List (Text × Value)) {depth : Nat},
    (∀ t ∈ memberTokens ms, t.Usable) → depth + membersNesting ms ≤ deepest →
      keepableMembers depth ms = true
  | [], _, _, _ => by rw [keepableMembers]
  | (k, v) :: ms, depth, h, hdepth => by
    simp only [membersNesting] at hdepth
    simp only [memberTokens, List.forall_mem_cons, List.forall_mem_append] at h
    obtain ⟨-, hkey, -, hvalue, hmembers⟩ := h
    rw [keepableMembers, show k.isSome = true from hkey,
      Value.Usable.keepable hvalue (by unfold Value.Shallow; omega),
      keepableMembers_of_usable ms hmembers (by omega)]
    rfl

end

@[simp]
theorem Value.ofString_usable (s : String) : (Value.ofString s).Usable := by
  simp [Value.Usable, Value.ofString, Value.tokens, Token.Usable]

theorem Value.ofNat_usable {n : Nat} (hn : n < 2 ^ 64) : (Value.ofNat n).Usable := by
  simpa [Value.Usable, Value.ofNat, Value.tokens, Token.Usable] using
    Numeral.float?_ofNat_isSome hn

/-! ## Optional values -/

/-- What is written for an optional value. -/
def orNull {α : Type} (write : α → Value) : Option α → Value
  | some a => write a
  | none => .null

section Optional

variable {α : Type} {write : α → Value} {x : Option α}

theorem orNull_proper (h : ∀ a, (write a).Proper) (x : Option α) : (orNull write x).Proper := by
  cases x with
  | none => exact Value.null_proper
  | some a => exact h a

theorem orNull_keepable {depth : Nat} (h : ∀ a, x = some a → (write a).keepable depth = true) :
    (orNull write x).keepable depth = true := by
  cases x with
  | none => exact Value.keepable_null
  | some a => exact h a rfl

theorem nullable_orNull {read : Reader α} {p : Place} (hnull : ∀ a, x = some a → write a ≠ .null)
    (hread : ∀ a, x = some a → read p (write a) = some a) :
    nullable read p (orNull write x) = some x := by
  cases x with
  | none => rfl
  | some a => exact nullable_some p (hnull a rfl) (hread a rfl)

end Optional

/-! ## Reading -/

/-- A list that was written is read back if its items are. -/
theorem listOf_map {α : Type} {read : Reader α} {write : α → Value} {p : Place} {xs : List α}
    (h : ∀ a ∈ xs, read p.inside (write a) = some a) :
    listOf read p (.array (xs.map write)) = some xs := by
  rw [listOf]
  induction xs with
  | nil => rfl
  | cons a xs ih =>
    rw [List.forall_mem_cons] at h
    rw [List.map_cons, List.mapM_cons, h.1, ih h.2]
    rfl

/-- A choice that was written with its tag first is read by its variant, as a kept value. -/
theorem tagged_record {α β : Type} {tag name : String} {table : List (String × α)}
    {body : α → Reader β} {a : α} {ms : List (String × Value)} {p : Place}
    (hkeep : (Value.record ((tag, .ofString name) :: ms)).keepable p.depth = true)
    (hname : table.lookup name = some a) (htag : ∀ m ∈ ms, m.1 ≠ tag) :
    tagged tag table body p (.record ((tag, .ofString name) :: ms)) =
      body a { p with kept := true } (.record ms) := by
  have hother : ((ms.map fun m => ((some m.1, m.2) : Text × Value)).any
      fun m => m.1 = some tag) = false := by
    rw [List.any_eq_false]
    intro m hm
    obtain ⟨n, hn, rfl⟩ := List.mem_map.1 hm
    simpa using htag n hn
  have hsplit : splitTag tag (.record ((tag, .ofString name) :: ms)) =
      some (.ofString name, .record ms) := by
    simp only [splitTag, Value.record_eq, List.map_cons, takeMember, if_true, hother]
    rfl
  have hvariant : variant table p.kept (.ofString name) = some a := hname
  rw [tagged, if_pos (by rw [hkeep, Bool.or_true]), hsplit]
  show (variant table p.kept (.ofString name) >>= fun a =>
    body a { p with kept := true } (.record ms)) = _
  rw [hvariant]
  rfl

end LatencyGauge.Json
