/-
Records spelt freely. What the slots of a record hold depends on the members of each field's name
alone: none leaves the slot empty, one fills it wherever it stands, and with two nothing is read. So
a record may be spelt with its members in any order, with unknown ones among them and with fields
left out that have their defaults, or as an array of its leading fields; and a tag may stand
anywhere among the members of a tagged choice.
-/
import LatencyGauge.Proofs.Json.Kept

namespace LatencyGauge.Json

/-! ## Members of a name -/

/-- The values that an object's members give to a name, in order. -/
def given (name : String) (ms : List (Text × Value)) : List Value :=
  ms.filterMap fun m => if m.1 = some name then some m.2 else none

@[simp]
theorem given_nil (name : String) : given name [] = [] := rfl

@[simp]
theorem given_cons_same (name : String) (v : Value) (ms : List (Text × Value)) :
    given name ((some name, v) :: ms) = v :: given name ms := by
  simp [given]

theorem given_cons_other {name : String} {key : Text} (h : key ≠ some name) (v : Value)
    (ms : List (Text × Value)) : given name ((key, v) :: ms) = given name ms := by
  simp [given, h]

@[simp]
theorem given_append (name : String) (before after : List (Text × Value)) :
    given name (before ++ after) = given name before ++ given name after :=
  List.filterMap_append

theorem mem_given {name : String} {ms : List (Text × Value)} {v : Value} :
    v ∈ given name ms ↔ (some name, v) ∈ ms := by
  simp only [given, List.mem_filterMap, Option.ite_none_right_eq_some, Option.some_inj]
  constructor
  · rintro ⟨⟨key, w⟩, hmem, rfl, rfl⟩
    exact hmem
  · intro hmem
    exact ⟨_, hmem, rfl, rfl⟩

theorem given_eq_nil_iff {name : String} {ms : List (Text × Value)} :
    given name ms = [] ↔ ∀ m ∈ ms, m.1 ≠ some name := by
  simp [given, List.filterMap_eq_nil_iff]

/-- Leaving out the members of another name changes nothing. -/
theorem given_filter {name other : String} (h : name ≠ other) (ms : List (Text × Value)) :
    given name (ms.filter fun m => m.1 ≠ some other) = given name ms := by
  induction ms with
  | nil => rfl
  | cons m ms ih =>
    obtain ⟨key, v⟩ := m
    by_cases hother : key = some other
    · subst hother
      rw [List.filter_cons_of_neg (by simp), ih, given_cons_other (by simpa using Ne.symm h)]
    · rw [List.filter_cons_of_pos (by simpa using hother)]
      by_cases hname : key = some name
      · rw [hname, given_cons_same, given_cons_same, ih]
      · rw [given_cons_other hname, given_cons_other hname, ih]

/-- An object whose members give a name two values, whatever else they give. -/
def GivesTwice (name : String) (ms : List (Text × Value)) : Prop :=
  ∃ before v between w after,
    ms = before ++ (some name, v) :: (between ++ (some name, w) :: after)

theorem GivesTwice.two_le {name : String} {ms : List (Text × Value)} (h : GivesTwice name ms) :
    2 ≤ (given name ms).length := by
  obtain ⟨before, v, between, w, after, rfl⟩ := h
  simp only [given_append, given_cons_same, List.length_append, List.length_cons]
  omega

/-! ## Slots -/

/-- A member goes into the slot of its name if that is free, and nowhere else. -/
theorem fill_map {names : List String} (hnames : names.Nodup) (key : String) (v : Value)
    (σ : String → Slot) :
    fill key v names (names.map σ) =
      if key ∈ names ∧ (σ key).isSome then none
      else some (names.map fun name => if name = key then some v else σ name) := by
  induction names with
  | nil => rfl
  | cons name names ih =>
    obtain ⟨hname, hnames⟩ := List.nodup_cons.1 hnames
    by_cases h : name = key
    · subst h
      have hrest : (names.map fun n => if n = name then some v else σ n) = names.map σ := by
        refine List.map_congr_left fun n hn => if_neg ?_
        rintro rfl
        exact hname hn
      cases hslot : σ name <;> simp [fill, hslot, hrest]
    · have hkey : key ∈ name :: names ↔ key ∈ names := by simp [Ne.symm h]
      have hstep : fill key v (name :: names) (σ name :: names.map σ) =
          (fill key v names (names.map σ)).map (σ name :: ·) := if_neg h
      rw [List.map_cons, hstep, ih hnames]
      simp only [hkey]
      split <;> simp [h]

/-- Slots are filled if all keys are texts and no field comes to two values; then each slot holds
what it held, or what the members give to its name. -/
theorem fillAll_eq_some_iff {names : List String} (hnames : names.Nodup)
    {ms : List (Text × Value)} {σ : String → Slot} {slots : List Slot} :
    fillAll names ms (names.map σ) = some slots ↔
      (∀ m ∈ ms, m.1.isSome = true) ∧
      (∀ name ∈ names, (σ name).toList.length + (given name ms).length ≤ 1) ∧
      slots = names.map fun name => (σ name).or (given name ms).head? := by
  induction ms generalizing σ with
  | nil =>
    have hlength : ∀ name, (σ name).toList.length ≤ 1 := fun name => by cases σ name <;> simp
    simp only [fillAll, given_nil, List.not_mem_nil, false_imp_iff, implies_true, true_and,
      List.length_nil, Nat.add_zero, hlength, List.head?_nil, Option.or_none, Option.some_inj]
    exact eq_comm
  | cons m ms ih =>
    obtain ⟨_ | key, v⟩ := m
    · simp [fillAll]
    rw [fillAll, fill_map hnames]
    split
    case isTrue h =>
      obtain ⟨hkey, hslot⟩ := h
      -- the slot holds a value and is given another
      simp only [Option.bind_none, reduceCtorEq, false_iff, not_and]
      intro _ hlength
      have := hlength key hkey
      obtain ⟨w, hw⟩ := Option.isSome_iff_exists.1 hslot
      simp [hw] at this
    case isFalse h =>
      rw [Option.bind_some, ih, List.forall_mem_cons]
      -- the value that was put into a slot is counted with the slot now, not with the members
      have hfield : ∀ name ∈ names,
          (if name = key then some v else σ name).toList.length + (given name ms).length =
            (σ name).toList.length + (given name ((some key, v) :: ms)).length ∧
          (if name = key then some v else σ name).or (given name ms).head? =
            (σ name).or (given name ((some key, v) :: ms)).head? := by
        intro name hname
        by_cases hkey : name = key
        · subst hkey
          have hfree : σ name = none := by
            by_contra hslot
            exact h ⟨hname, Option.isSome_iff_ne_none.2 hslot⟩
          simp [hfree, Nat.add_comm]
        · have hother : (some key : Text) ≠ some name := by simpa using Ne.symm hkey
          simp [hkey, given_cons_other hother]
      refine and_congr (by simp) (and_congr ?_ ?_)
      · refine forall₂_congr fun name hname => ?_
        rw [(hfield name hname).1]
      · rw [List.map_congr_left fun name hname => (hfield name hname).2]

/-- The slots of an object hold what its members give to the fields' names, and there are none if a
key is no text or a field comes twice. -/
theorem slotsOf_object_iff {names : List String} (hnames : names.Nodup) {defaults : Bool}
    {ms : List (Text × Value)} {slots : List Slot} :
    slotsOf names defaults (.object ms) = some slots ↔
      (∀ m ∈ ms, m.1.isSome = true) ∧ (∀ name ∈ names, (given name ms).length ≤ 1) ∧
      slots = names.map fun name => (given name ms).head? := by
  rw [slotsOf, fillAll_eq_some_iff hnames (σ := fun _ => none)]
  simp

theorem slotsOf_eq_none {names : List String} (hnames : names.Nodup) {defaults : Bool}
    {ms : List (Text × Value)} {name : String} (hname : name ∈ names)
    (h : 2 ≤ (given name ms).length) : slotsOf names defaults (.object ms) = none := by
  refine Option.eq_none_iff_forall_ne_some.2 fun slots hslots => ?_
  have hone := ((slotsOf_object_iff hnames).1 hslots).2.1 name hname
  omega

/-- A value that gives a value to a field: as a member of its name, or as the item in its place. -/
def Value.Gives (names : List String) (name : String) : Value → Value → Prop
  | .object ms, v => (some name, v) ∈ ms
  | .array vs, v => vs[names.idxOf name]? = some v
  | _, _ => False

/-- What a field is given is what its slot holds. -/
theorem Value.Gives.slot {names : List String} (hnames : names.Nodup) {defaults : Bool}
    {name : String} (hname : name ∈ names) {u v : Value} (h : u.Gives names name v)
    {slots : List Slot} (hslots : slotsOf names defaults u = some slots) :
    slots[names.idxOf name]? = some (some v) := by
  cases u with
  | object ms =>
    obtain ⟨-, hone, rfl⟩ := (slotsOf_object_iff hnames).1 hslots
    have hmem : v ∈ given name ms := mem_given.2 h
    have hgiven : given name ms = [v] := by
      obtain ⟨w, hw⟩ := List.length_eq_one_iff.1
        (Nat.le_antisymm (hone name hname) (List.length_pos_of_mem hmem))
      rw [hw] at hmem ⊢
      rw [List.mem_singleton.1 hmem]
    rw [List.getElem?_map, List.getElem?_idxOf hname, Option.map_some, hgiven]
    rfl
  | array vs =>
    have hitem : vs[names.idxOf name]? = some v := h
    obtain ⟨hlt, -⟩ := List.getElem?_eq_some_iff.1 hitem
    rw [slotsOf] at hslots
    split at hslots
    · obtain rfl := Option.some_inj.1 hslots
      rw [List.getElem?_append_left (by simpa using hlt), List.getElem?_map, hitem]
      rfl
    · contradiction
  | _ => exact h.elim

/-! ## Free spelling -/

/-- How a field of a record may be spelt: its name, the values that spell it, and whether it may be
left out. -/
structure FieldRule where
  name : String
  spelt : Value → Prop
  omissible : Prop

namespace FieldRule

variable {f : FieldRule}

/-- A field given one value that spells it, or left out if it may be. -/
def Met (f : FieldRule) : List Value → Prop
  | [] => f.omissible
  | [v] => f.spelt v
  | _ => False

/-- A slot with a value that spells the field, or empty if the field may be left out. -/
def Filled (f : FieldRule) : Slot → Prop
  | some v => f.spelt v
  | none => f.omissible

theorem Met.length_le {vs : List Value} (h : f.Met vs) : vs.length ≤ 1 := by
  match vs, h with
  | [], _ => simp
  | [_], _ => simp

theorem Met.filled {vs : List Value} (h : f.Met vs) : f.Filled vs.head? := by
  match vs, h with
  | [], h => exact h
  | [_], h => exact h

theorem Met.eq_singleton {vs : List Value} (h : f.Met vs) (hrequired : ¬ f.omissible) :
    ∃ v, vs = [v] ∧ f.spelt v := by
  match vs, h with
  | [], h => exact absurd h hrequired
  | [v], h => exact ⟨v, rfl, h⟩

theorem Met.perm {vs ws : List Value} (hperm : vs.Perm ws) (h : f.Met vs) : f.Met ws := by
  match vs, h with
  | [], h =>
    rw [List.nil_perm.1 hperm]
    exact h
  | [_], h =>
    rw [← List.singleton_perm.1 hperm]
    exact h

/-- A field is read from its slot if it is read from every value that spells it. -/
theorem Filled.defaulted {slot : Slot} (h : f.Filled slot) {α : Type} {a b : α} {read : Reader α}
    {p : Place} (hread : ∀ v, f.spelt v → read p.inside v = some b)
    (homitted : f.omissible → b = a) : defaulted a read p slot = some b := by
  cases slot with
  | some v => exact hread v h
  | none => exact congrArg some (homitted h).symm

/-- A field that one value spells is read from its slot if it is read from that value. -/
theorem Filled.defaulted_written {name : String} {v : Value} {omissible : Prop} {slot : Slot}
    (h : Filled ⟨name, (· = v), omissible⟩ slot) {α : Type} {a b : α} {read : Reader α} {p : Place}
    (hread : read p.inside v = some b) (homitted : omissible → b = a) :
    Json.defaulted a read p slot = some b := by
  refine h.defaulted ?_ homitted
  rintro _ rfl
  exact hread

end FieldRule

/-- The values that spell a record. An object gives each field once or leaves it out if it may be,
in any order and with other members that are admitted; an array gives the leading fields, and the
others may be left out. -/
def Spells (fields : List FieldRule) (admits : Value → Prop) : Value → Prop
  | .object ms =>
    (∀ m ∈ ms, m.1.isSome = true ∧ admits m.2) ∧ ∀ f ∈ fields, f.Met (given f.name ms)
  | .array vs =>
    ∃ shown left, fields = shown ++ left ∧ List.Forall₂ FieldRule.spelt shown vs ∧
      ∀ f ∈ left, f.omissible
  | _ => False

section Spells

variable {fields : List FieldRule} {admits : Value → Prop}

/-- A value that spells a record fills the slots of its fields. Without defaults there may be no
field to leave out. -/
theorem Spells.slots {v : Value} {defaults : Bool} (hnames : (fields.map (·.name)).Nodup)
    (hdefaults : defaults = true ∨ ∀ f ∈ fields, ¬ f.omissible) (h : Spells fields admits v) :
    ∃ slots, slotsOf (fields.map (·.name)) defaults v = some slots ∧
      List.Forall₂ FieldRule.Filled fields slots := by
  cases v with
  | object ms =>
    obtain ⟨hkeys, hfields⟩ := h
    refine ⟨fields.map fun f => (given f.name ms).head?, ?_, ?_⟩
    · rw [slotsOf_object_iff hnames, List.forall_mem_map, List.map_map]
      exact ⟨fun m hm => (hkeys m hm).1, fun f hf => (hfields f hf).length_le, rfl⟩
    · rw [List.forall₂_map_right_iff, List.forall₂_same]
      exact fun f hf => (hfields f hf).filled
  | array vs =>
    obtain ⟨shown, left, rfl, hshown, hleft⟩ := h
    have hlength := hshown.length_eq
    -- without defaults the array has to give every field
    have hwhole : defaults = true ∨ left = [] := by
      refine hdefaults.imp_right fun hrequired => List.eq_nil_iff_forall_not_mem.2 fun f hf => ?_
      exact hrequired f (List.mem_append_right shown hf) (hleft f hf)
    refine ⟨vs.map some ++ left.map fun _ => none, ?_, ?_⟩
    · rcases hwhole with rfl | rfl <;> simp [slotsOf, hlength, List.map_const']
    · refine List.rel_append ?_ ?_
      · rw [List.forall₂_map_right_iff]
        exact hshown
      · rw [List.forall₂_map_right_iff, List.forall₂_same]
        exact hleft
  | _ => exact h.elim

/-- A value that spells a record can be kept if what spells its fields can and what is admitted
beside them can. -/
theorem Spells.keepable {v : Value} {depth : Nat} (hdepth : depth < deepest)
    (hadmits : ∀ u, admits u → u.keepable (depth + 1) = true)
    (hspelt : ∀ f ∈ fields, ∀ u, f.spelt u → u.keepable (depth + 1) = true)
    (h : Spells fields admits v) : v.keepable depth = true := by
  cases v with
  | object ms =>
    refine Value.keepable_object_iff.2 ⟨hdepth, fun m hm => ?_⟩
    exact (h.1 m hm).imp_right (hadmits m.2)
  | array vs =>
    obtain ⟨shown, left, rfl, hshown, -⟩ := h
    refine Value.keepable_array_iff.2 ⟨hdepth, fun u hu => ?_⟩
    obtain ⟨i, hi, rfl⟩ := List.mem_iff_getElem.1 hu
    have hlt : i < shown.length := hshown.length_eq ▸ hi
    exact hspelt _ (List.mem_append_left left (List.getElem_mem hlt)) _ (hshown.get hlt hi)
  | _ => exact h.elim

/-- A record that was written with a value for each field is one of its spellings. -/
theorem spells_record {ms : List (String × Value)} (hnames : (fields.map (·.name)).Nodup)
    (hadmits : ∀ m ∈ ms, admits m.2)
    (h : List.Forall₂ (fun f m => m.1 = f.name ∧ f.spelt m.2) fields ms) :
    Spells fields admits (.record ms) := by
  rw [Value.record_eq]
  constructor
  · rw [List.forall_mem_map]
    exact fun m hm => ⟨rfl, hadmits m hm⟩
  induction h with
  | nil => simp
  | @cons f m fields ms hm h ih =>
    rw [List.map_cons, List.nodup_cons] at hnames
    rw [List.forall_mem_cons] at hadmits ⊢
    obtain ⟨key, v⟩ := m
    obtain ⟨rfl, hspelt⟩ : key = f.name ∧ f.spelt v := hm
    have hrest : given f.name (ms.map fun m => (some m.1, m.2)) = [] := by
      rw [given_eq_nil_iff, List.forall_mem_map]
      rintro m' hm' heq
      obtain ⟨i, hi, rfl⟩ := List.mem_iff_getElem.1 hm'
      have hlt : i < fields.length := h.length_eq ▸ hi
      refine hnames.1 (List.mem_map.2 ⟨fields[i], List.getElem_mem hlt, ?_⟩)
      exact (h.get hlt hi).1.symm.trans (Option.some_inj.1 heq)
    rw [List.map_cons]
    constructor
    · rw [given_cons_same, hrest]
      exact hspelt
    · intro g hg
      have hother : f.name ≠ g.name := fun heq => hnames.1 (heq ▸ List.mem_map_of_mem hg)
      rw [given_cons_other (by simpa using hother)]
      exact ih hnames.2 hadmits.2 g hg

/-- The members of an object that spells a record may change places. -/
theorem Spells.perm {ms ms' : List (Text × Value)} (hperm : ms.Perm ms')
    (h : Spells fields admits (.object ms)) : Spells fields admits (.object ms') := by
  obtain ⟨hkeys, hfields⟩ := h
  constructor
  · intro m hm
    exact hkeys m (hperm.mem_iff.2 hm)
  · intro f hf
    exact (hfields f hf).perm (hperm.filterMap _)

/-- A member that is none of the fields may be put anywhere. -/
theorem Spells.insert {key : String} {v : Value} (hkey : ∀ f ∈ fields, f.name ≠ key)
    (hv : admits v) (before : List (Text × Value)) {after : List (Text × Value)}
    (h : Spells fields admits (.object (before ++ after))) :
    Spells fields admits (.object (before ++ (some key, v) :: after)) := by
  refine Spells.perm List.perm_middle.symm ?_
  obtain ⟨hkeys, hfields⟩ := h
  constructor
  · rw [List.forall_mem_cons]
    exact ⟨⟨rfl, hv⟩, hkeys⟩
  · intro f hf
    rw [given_cons_other (by simpa using (hkey f hf).symm)]
    exact hfields f hf

end Spells

/-! ## Choices -/

/-- The values that spell a plain choice: its name, or an object with that name alone. -/
def SpellsName (name : String) (v : Value) : Prop :=
  v = .ofString name ∨ v = .object [(some name, .null)]

/-- A choice is read from whatever spells its name if it is read from the name. -/
theorem choice_of_spelt {α : Type} {table : List (String × α)} {p : Place} {name : String} {a : α}
    (hname : choice table p (.ofString name) = some a) {v : Value} (h : SpellsName name v) :
    choice table p v = some a := by
  rcases h with rfl | rfl
  · exact hname
  · exact hname

/-! ## Tags -/

/-- The one member of a name, wherever it stands, is taken out of an object. -/
theorem takeMember_eq_some_iff {tag : String} {ms rest : List (Text × Value)} {v : Value} :
    takeMember tag ms = some (v, rest) ↔
      given tag ms = [v] ∧ rest = ms.filter fun m => m.1 ≠ some tag := by
  induction ms generalizing rest with
  | nil => simp [takeMember]
  | cons m ms ih =>
    obtain ⟨key, w⟩ := m
    by_cases hkey : key = some tag
    · subst hkey
      rw [takeMember, if_pos rfl, given_cons_same, List.cons.injEq]
      -- found first, the member is taken if there is no other of its name
      by_cases hmore : given tag ms = []
      · have hnone := given_eq_nil_iff.1 hmore
        have hany : ¬ (ms.any fun m => m.1 = some tag) = true := by
          rw [Bool.not_eq_true, List.any_eq_false]
          simpa using hnone
        have hfilter : (ms.filter fun m => m.1 ≠ some tag) = ms := by
          rw [List.filter_eq_self]
          simpa using hnone
        rw [if_neg hany, List.filter_cons_of_neg (by simp), hfilter]
        simp [hmore, eq_comm]
      · have hany : (ms.any fun m => m.1 = some tag) = true := by
          by_contra hnone
          refine hmore (given_eq_nil_iff.2 fun m hm hname => hnone ?_)
          exact List.any_eq_true.2 ⟨m, hm, by simpa using hname⟩
        simp [hany, hmore]
    · rw [takeMember, if_neg hkey, given_cons_other hkey, List.filter_cons_of_pos (by simpa using hkey),
        Option.map_eq_some_iff]
      constructor
      · rintro ⟨⟨u, others⟩, htake, heq⟩
        obtain ⟨rfl, rfl⟩ := Prod.mk.inj heq
        obtain ⟨hgiven, rfl⟩ := ih.1 htake
        exact ⟨hgiven, rfl⟩
      · rintro ⟨hgiven, rfl⟩
        exact ⟨_, ih.2 ⟨hgiven, rfl⟩, rfl⟩

/-- The tag of a value that spells a record whose first field is the tag, and what spells the other
fields. -/
theorem Spells.splitTag {tag : FieldRule} {fields : List FieldRule} {admits : Value → Prop}
    {v : Value} (hnames : ∀ f ∈ fields, f.name ≠ tag.name) (htag : ¬ tag.omissible)
    (h : Spells (tag :: fields) admits v) :
    ∃ t rest, splitTag tag.name v = some (t, rest) ∧ tag.spelt t ∧ Spells fields admits rest := by
  cases v with
  | object ms =>
    obtain ⟨hkeys, hfields⟩ := h
    rw [List.forall_mem_cons] at hfields
    obtain ⟨t, hgiven, ht⟩ := hfields.1.eq_singleton htag
    refine ⟨t, .object (ms.filter fun m => m.1 ≠ some tag.name), ?_, ht, ?_, ?_⟩
    · rw [Json.splitTag, takeMember_eq_some_iff.2 ⟨hgiven, rfl⟩]
      rfl
    · intro m hm
      exact hkeys m (List.mem_filter.1 hm).1
    · intro f hf
      rw [given_filter (hnames f hf)]
      exact hfields.2 f hf
  | array vs =>
    obtain ⟨shown, left, heq, hshown, hleft⟩ := h
    cases hshown with
    | nil =>
      rw [List.nil_append] at heq
      exact absurd (hleft tag (heq ▸ List.mem_cons_self)) htag
    | cons ht hshown =>
      rw [List.cons_append] at heq
      obtain ⟨rfl, rfl⟩ := List.cons.inj heq
      exact ⟨_, _, rfl, ht, _, left, rfl, hshown, hleft⟩
  | _ => exact h.elim

/-- An object is read as a tagged choice only if it has the tag once, and the variant that the tag
names is read from the other members. -/
theorem tagged_object_eq_some {α β : Type} {tag : String} {table : List (String × α)}
    {body : α → Reader β} {p : Place} {ms : List (Text × Value)} {b : β}
    (h : tagged tag table body p (.object ms) = some b) :
    ∃ t a, given tag ms = [t] ∧ variant table p.kept t = some a ∧
      body a { p with kept := true } (.object (ms.filter fun m => m.1 ≠ some tag)) = some b := by
  unfold tagged at h
  split at h
  · simp only [Json.splitTag, bind, Option.bind_eq_some_iff, Option.map_eq_some_iff] at h
    obtain ⟨_, ⟨⟨t, rest⟩, htake, rfl⟩, a, hvariant, hbody⟩ := h
    obtain ⟨hgiven, rfl⟩ := takeMember_eq_some_iff.1 htake
    exact ⟨t, a, hgiven, hvariant, hbody⟩
  · contradiction

end LatencyGauge.Json
