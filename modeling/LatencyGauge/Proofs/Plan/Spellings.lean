/-
Plans spelt by hand. A plan may be spelt with its fields in any order, at every level of nesting,
with unknown members among them and with fields left out that are standard, or as an array of its
leading fields, and with white space and escapes anywhere: it is always read as the same plan. Only
inside the workload, which is kept whole before its tag is found, do unknown members have to be
usable values that are not nested too deep. A field that is given twice is never read as anything.
-/
import LatencyGauge.Proofs.Json.Members
import LatencyGauge.Proofs.Plan.RoundTrip

namespace LatencyGauge

open Json

/-! ## Workloads -/

/-- The kind of a workload. -/
def Workload.kind : Workload → WorkloadKind
  | .null => .null
  | .spin _ => .spin
  | .roundTrip => .roundTrip
  | .response => .response
  | .allocFree => .allocFree

/-- The written name of a kind. -/
def WorkloadKind.name : WorkloadKind → String
  | .null => "null"
  | .spin => "spin"
  | .roundTrip => "round_trip"
  | .response => "response"
  | .allocFree => "alloc_free"

/-- The fields that a workload has besides its tag. -/
def Workload.ownRules : Workload → List FieldRule
  | .spin iterations => [⟨"iterations", (· = .ofNat iterations.toNat), False⟩]
  | _ => []

/-- The fields of a workload, none of which may be left out. -/
def Workload.rules (w : Workload) : List FieldRule :=
  ⟨"kind", (· = .ofString w.kind.name), False⟩ :: w.ownRules

theorem WorkloadKind.lookup_name (k : WorkloadKind) :
    WorkloadKind.table.lookup k.name = some k := by
  cases k <;> rfl

/-- A workload is read from what spells its fields beside the tag. -/
theorem WorkloadKind.ofJson_of_spelt {place : Place} {w : Workload} {admits : Value → Prop}
    {v : Value} (h : Spells w.ownRules admits v) : w.kind.ofJson place v = some w := by
  cases w with
  | spin iterations =>
    have hnames : ((Workload.spin iterations).ownRules.map (·.name)).Nodup :=
      List.nodup_singleton _
    have hrequired : ∀ f ∈ (Workload.spin iterations).ownRules, ¬ f.omissible := by
      simp [Workload.ownRules]
    obtain ⟨slots, hslots, hfilled⟩ := h.slots hnames (.inr hrequired : false = true ∨ _)
    match slots, hfilled with
    | [some _], .cons rfl .nil =>
      refine read_then hslots ?_
      refine read_then (word32_ofNat place.inside iterations) ?_
      rfl
  | _ =>
    cases v with
    | object ms => rfl
    | array vs =>
      obtain ⟨shown, left, heq, hshown, -⟩ := h
      obtain ⟨rfl, -⟩ := List.append_eq_nil_iff.1 heq.symm
      cases hshown
      rfl
    | _ => exact h.elim

/-- What spells the fields of a workload is usable and has no parts. -/
theorem Workload.plain_of_spelt {w : Workload} {f : FieldRule} (hf : f ∈ w.rules) {u : Value}
    (hu : f.spelt u) : u.Usable ∧ u.nesting = 0 := by
  have htag : (Value.ofString w.kind.name).nesting = 0 := rfl
  cases w with
  | spin iterations =>
    have hcount := iterations.toNat_lt.trans (by decide : 2 ^ 32 < 2 ^ 64)
    have hnumber : (Value.ofNat iterations.toNat).nesting = 0 := rfl
    simp only [Workload.rules, Workload.ownRules, List.mem_cons, List.not_mem_nil, or_false] at hf
    rcases hf with rfl | rfl <;> subst hu
    · exact ⟨Value.ofString_usable _, htag⟩
    · exact ⟨Value.ofNat_usable hcount, hnumber⟩
  | _ =>
    obtain rfl := List.mem_singleton.1 hf
    subst hu
    exact ⟨Value.ofString_usable _, htag⟩

/-- What is written for a workload is one of its spellings. -/
theorem Workload.spelt_toJson {w : Workload} {admits : Value → Prop}
    (hadmits : ∀ u : Value, u.Usable → u.nesting = 0 → admits u) :
    Spells w.rules admits w.toJson := by
  have hfields : ∀ f ∈ w.rules, ∀ u, f.spelt u → admits u := by
    intro f hf u hu
    obtain ⟨husable, hflat⟩ := Workload.plain_of_spelt hf hu
    exact hadmits u husable hflat
  cases w with
  | spin iterations =>
    refine spells_record (by simp [Workload.rules, Workload.ownRules]) ?_ ?_
    · simp only [Workload.rules, Workload.ownRules, Workload.kind, WorkloadKind.name] at hfields
      simpa using hfields
    · simp [Workload.rules, Workload.ownRules, Workload.kind, WorkloadKind.name]
  | _ =>
    refine spells_record (List.nodup_singleton _) ?_ ?_
    · simp only [Workload.rules, Workload.ownRules, Workload.kind, WorkloadKind.name] at hfields
      simpa using hfields
    · simp [Workload.rules, Workload.ownRules, Workload.kind, WorkloadKind.name]

/-- A workload is read from every value that spells it, if unknown members can be kept. -/
theorem Workload.ofJson_of_spelt {place : Place} {w : Workload} {admits : Value → Prop} {v : Value}
    (hdepth : place.depth < deepest)
    (hadmits : ∀ u, admits u → u.keepable (place.depth + 1) = true)
    (h : Spells w.rules admits v) : Workload.ofJson place v = some w := by
  have hspelt : ∀ f ∈ w.rules, ∀ u, f.spelt u → u.keepable (place.depth + 1) = true := by
    intro f hf u hu
    obtain ⟨husable, hflat⟩ := Workload.plain_of_spelt hf hu
    exact husable.keepable (Value.shallow_of_flat hflat hdepth)
  have hkeepable : (place.kept || v.keepable place.depth) = true := by
    rw [h.keepable hdepth hadmits hspelt, Bool.or_true]
  have hnames : ∀ f ∈ w.ownRules, f.name ≠ "kind" := by
    cases w <;> simp [Workload.ownRules]
  obtain ⟨_, rest, hsplit, rfl, hrest⟩ := Spells.splitTag hnames id h
  unfold Workload.ofJson tagged
  rw [if_pos hkeepable]
  refine read_then hsplit ?_
  refine read_then (show variant WorkloadKind.table place.kept (.ofString w.kind.name) = some w.kind
    from w.kind.lookup_name) ?_
  exact WorkloadKind.ofJson_of_spelt hrest

/-! ## Loop plans -/

/-- The fields of a loop plan, each of which may be left out if it is standard. -/
def LoopPlan.rules (l : LoopPlan) : List FieldRule :=
  let d := LoopPlan.standard
  [⟨"samples", (· = .ofWord l.samples), l.samples = d.samples⟩,
    ⟨"max_attempts", (· = wordOrNull l.maxAttempts), l.maxAttempts = d.maxAttempts⟩,
    ⟨"warmup", (· = .ofWord l.warmup), l.warmup = d.warmup⟩,
    ⟨"baseline", (· = .ofWord l.baseline), l.baseline = d.baseline⟩,
    ⟨"outlier_ceiling", (· = .ofWord l.ceiling), l.ceiling = d.ceiling⟩,
    ⟨"quiescence_cycles", (· = .ofWord l.quiescence), l.quiescence = d.quiescence⟩,
    ⟨"settle_cycles", (· = .ofWord l.settle), l.settle = d.settle⟩,
    ⟨"failure_policy", SpellsName l.onFailure.name, l.onFailure = d.onFailure⟩,
    ⟨"drift_tolerance", (· = .ofFloat l.tolerance), l.tolerance = d.tolerance⟩]

/-- The values that spell a loop plan, with any unknown members. -/
def LoopPlan.Spelt (l : LoopPlan) : Value → Prop := Spells l.rules fun _ => True

/-- What is written for a loop plan is one of its spellings. -/
theorem LoopPlan.spelt_toJson (l : LoopPlan) : l.Spelt l.toJson := by
  refine spells_record LoopPlan.fields_nodup (fun _ _ => trivial) ?_
  simp [LoopPlan.rules, SpellsName]

/-- A loop plan is read from every value that spells it. -/
theorem LoopPlan.ofJson_of_spelt {l : LoopPlan} (htolerance : FloatReadsBack l.tolerance)
    {place : Place} {v : Value} (h : l.Spelt v) : LoopPlan.ofJson place v = some l := by
  have hnames : (l.rules.map (·.name)).Nodup := LoopPlan.fields_nodup
  obtain ⟨slots, hslots, hfilled⟩ := Spells.slots hnames (.inl rfl) h
  match slots, hfilled with
  | _, .cons hsamples (.cons hattempts (.cons hwarmup (.cons hbaseline (.cons hceiling
      (.cons hquiescence (.cons hsettle (.cons hpolicy (.cons hdrift .nil)))))))) =>
    refine read_then hslots ?_
    refine read_then (hsamples.defaulted_written (word_ofWord _ _) id) ?_
    refine read_then (hattempts.defaulted_written (nullable_wordOrNull _ _) id) ?_
    refine read_then (hwarmup.defaulted_written (word_ofWord _ _) id) ?_
    refine read_then (hbaseline.defaulted_written (word_ofWord _ _) id) ?_
    refine read_then (hceiling.defaulted_written (word_ofWord _ _) id) ?_
    refine read_then (hquiescence.defaulted_written (word_ofWord _ _) id) ?_
    refine read_then (hsettle.defaulted_written (word_ofWord _ _) id) ?_
    refine read_then
      (hpolicy.defaulted (fun _ => choice_of_spelt (FailurePolicy.ofJson_name _ _)) id) ?_
    refine read_then (hdrift.defaulted_written (htolerance.float_eq _) id) ?_
    rfl

/-! ## Run plans -/

/-- The fields of a run plan, each of which may be left out if it is standard; the workload may have
unknown members that are admitted. -/
def RunPlan.rules (admits : Value → Prop) (p : RunPlan) : List FieldRule :=
  let d := RunPlan.standard
  [⟨"cores", (· = .ofWord p.cores), p.cores = d.cores⟩,
    ⟨"primaries", (· = .ofWord p.primaries), p.primaries = d.primaries⟩,
    ⟨"signal_offset", (· = .ofWord p.signalOffset), p.signalOffset = d.signalOffset⟩,
    ⟨"workload", Spells p.workload.rules admits, p.workload = d.workload⟩,
    ⟨"background", SpellsName p.background.name, p.background = d.background⟩,
    ⟨"payload", SpellsName p.payload.name, p.payload = d.payload⟩,
    ⟨"sampler", p.loop.Spelt, p.loop = d.loop⟩,
    ⟨"reverse_baseline", (· = .ofWord p.reverseBaseline), p.reverseBaseline = d.reverseBaseline⟩,
    ⟨"tick_period_us", (· = .ofWord p.tickPeriod), p.tickPeriod = d.tickPeriod⟩,
    ⟨"flush_marker", (· = stringOrNull p.marker), p.marker = d.marker⟩,
    ⟨"pin_cores", (· = .bool p.pinned), p.pinned = d.pinned⟩,
    ⟨"unfiltered", (· = .bool p.unfiltered), p.unfiltered = d.unfiltered⟩]

/-- The values that spell a run plan, with any unknown members, and in the workload with unknown
members that are admitted. -/
def RunPlan.Spelt (admits : Value → Prop) (p : RunPlan) : Value → Prop :=
  Spells (p.rules admits) fun _ => True

/-- What is written for a run plan is one of its spellings. -/
theorem RunPlan.spelt_toJson (p : RunPlan) :
    p.Spelt (fun u => u.Usable ∧ u.Shallow 2) p.toJson := by
  refine spells_record RunPlan.fields_nodup (fun _ _ => trivial) ?_
  have hworkload : Spells p.workload.rules (fun u => u.Usable ∧ u.Shallow 2) p.workload.toJson :=
    Workload.spelt_toJson fun u husable hflat => ⟨husable, Value.shallow_of_flat hflat (by decide)⟩
  simp [RunPlan.rules, SpellsName, LoopPlan.spelt_toJson, hworkload]

/-- A run plan is read from every value that spells it. -/
theorem RunPlan.ofJson_of_spelt {p : RunPlan} (htolerance : FloatReadsBack p.loop.tolerance)
    {place : Place} {admits : Value → Prop} {v : Value} (hdepth : place.depth + 1 < deepest)
    (hadmits : ∀ u, admits u → u.keepable (place.depth + 2) = true) (h : p.Spelt admits v) :
    RunPlan.ofJson place v = some p := by
  have hnames : ((p.rules admits).map (·.name)).Nodup := RunPlan.fields_nodup
  obtain ⟨slots, hslots, hfilled⟩ := Spells.slots hnames (.inl rfl) h
  match slots, hfilled with
  | _, .cons hcores (.cons hprimaries (.cons hoffset (.cons hworkload (.cons hbackground
      (.cons hpayload (.cons hloop (.cons hreverse (.cons htick (.cons hmarker (.cons hpinned
      (.cons hunfiltered .nil))))))))))) =>
    refine read_then hslots ?_
    refine read_then (hcores.defaulted_written (word_ofWord _ _) id) ?_
    refine read_then (hprimaries.defaulted_written (word_ofWord _ _) id) ?_
    refine read_then (hoffset.defaulted_written (word_ofWord _ _) id) ?_
    refine read_then
      (hworkload.defaulted (fun _ hv => Workload.ofJson_of_spelt hdepth hadmits hv) id) ?_
    refine read_then
      (hbackground.defaulted (fun _ => choice_of_spelt (Background.ofJson_name _ _)) id) ?_
    refine read_then (hpayload.defaulted (fun _ => choice_of_spelt (Payload.ofJson_name _ _)) id) ?_
    refine read_then (hloop.defaulted (fun _ => LoopPlan.ofJson_of_spelt htolerance) id) ?_
    refine read_then (hreverse.defaulted_written (word_ofWord _ _) id) ?_
    refine read_then (htick.defaulted_written (word_ofWord _ _) id) ?_
    refine read_then (hmarker.defaulted_written (nullable_stringOrNull _ _) id) ?_
    refine read_then (hpinned.defaulted_written (boolean_bool _ _) id) ?_
    refine read_then (hunfiltered.defaulted_written (boolean_bool _ _) id) ?_
    rfl

/-! ## Fields given twice -/

/-- What is read as a run plan gives a workload and a loop plan that are read as its own. -/
theorem RunPlan.ofJson_eq_some {place : Place} {v : Value} {p : RunPlan}
    (h : RunPlan.ofJson place v = some p) {slots : List Slot}
    (hslots : slotsOf RunPlan.fields true v = some slots) :
    (∀ w, slots[3]? = some (some w) → Workload.ofJson place.inside w = some p.workload) ∧
      ∀ w, slots[6]? = some (some w) → LoopPlan.ofJson place.inside w = some p.loop := by
  unfold RunPlan.ofJson at h
  obtain ⟨_, hslots', h⟩ := Option.bind_eq_some_iff.1 h
  obtain rfl := Option.some_inj.1 (hslots.symm.trans hslots')
  split at h
  -- the fields are read one after the other; only the fourth and the seventh are looked at
  · obtain ⟨_, -, h⟩ := Option.bind_eq_some_iff.1 h
    obtain ⟨_, -, h⟩ := Option.bind_eq_some_iff.1 h
    obtain ⟨_, -, h⟩ := Option.bind_eq_some_iff.1 h
    obtain ⟨workload, hworkload, h⟩ := Option.bind_eq_some_iff.1 h
    obtain ⟨_, -, h⟩ := Option.bind_eq_some_iff.1 h
    obtain ⟨_, -, h⟩ := Option.bind_eq_some_iff.1 h
    obtain ⟨loop, hloop, h⟩ := Option.bind_eq_some_iff.1 h
    obtain ⟨_, -, h⟩ := Option.bind_eq_some_iff.1 h
    obtain ⟨_, -, h⟩ := Option.bind_eq_some_iff.1 h
    obtain ⟨_, -, h⟩ := Option.bind_eq_some_iff.1 h
    obtain ⟨_, -, h⟩ := Option.bind_eq_some_iff.1 h
    obtain ⟨_, -, h⟩ := Option.bind_eq_some_iff.1 h
    obtain rfl := Option.some_inj.1 h
    constructor
    · rintro w hw
      obtain rfl := Option.some_inj.1 hw
      exact hworkload
    · rintro w hw
      obtain rfl := Option.some_inj.1 hw
      exact hloop
  · contradiction

/-- A value that gives a field two values: a field of the run plan or of its loop plan, or the tag
or the count of its workload. -/
inductive RunPlan.Doubled : Value → Prop
  | own {ms : List (Text × Value)} {name : String} (hname : name ∈ RunPlan.fields)
      (h : GivesTwice name ms) : Doubled (.object ms)
  | loop {v : Value} {ms : List (Text × Value)} {name : String}
      (hv : v.Gives RunPlan.fields "sampler" (.object ms)) (hname : name ∈ LoopPlan.fields)
      (h : GivesTwice name ms) : Doubled v
  | tag {v : Value} {ms : List (Text × Value)}
      (hv : v.Gives RunPlan.fields "workload" (.object ms)) (h : GivesTwice "kind" ms) : Doubled v
  | count {v : Value} {ms : List (Text × Value)}
      (hv : v.Gives RunPlan.fields "workload" (.object ms))
      (hkind : (some "kind", .ofString "spin") ∈ ms) (h : GivesTwice "iterations" ms) : Doubled v

theorem LoopPlan.ofJson_of_givesTwice {ms : List (Text × Value)} {name : String}
    (hname : name ∈ LoopPlan.fields) (h : GivesTwice name ms) (place : Place) :
    LoopPlan.ofJson place (.object ms) = none := by
  unfold LoopPlan.ofJson
  rw [slotsOf_eq_none LoopPlan.fields_nodup hname h.two_le]
  rfl

theorem Workload.ofJson_of_tag_twice {ms : List (Text × Value)} (h : GivesTwice "kind" ms)
    (place : Place) : Workload.ofJson place (.object ms) = none := by
  refine Option.eq_none_iff_forall_ne_some.2 fun w hw => ?_
  obtain ⟨t, -, hgiven, -⟩ := tagged_object_eq_some hw
  have htwo := h.two_le
  rw [hgiven] at htwo
  contradiction

theorem Workload.ofJson_of_count_twice {ms : List (Text × Value)}
    (hkind : (some "kind", .ofString "spin") ∈ ms) (h : GivesTwice "iterations" ms)
    (place : Place) : Workload.ofJson place (.object ms) = none := by
  refine Option.eq_none_iff_forall_ne_some.2 fun w hw => ?_
  obtain ⟨t, kind, hgiven, hvariant, hbody⟩ := tagged_object_eq_some hw
  -- the tag is the one that names the variant with a count
  have ht : .ofString "spin" ∈ given "kind" ms := mem_given.2 hkind
  rw [hgiven, List.mem_singleton] at ht
  subst ht
  obtain rfl : WorkloadKind.spin = kind := Option.some_inj.1 hvariant
  have htwo := h.two_le
  rw [← given_filter (by decide : "iterations" ≠ "kind")] at htwo
  have hslots : slotsOf ["iterations"] false (.object (ms.filter fun m => m.1 ≠ some "kind")) =
      none :=
    slotsOf_eq_none (List.nodup_singleton _) (List.mem_singleton_self _) htwo
  obtain ⟨_, hslots', -⟩ := Option.bind_eq_some_iff.1 hbody
  rw [hslots] at hslots'
  contradiction

/-- A run plan is not read from a value that gives a field twice. -/
theorem RunPlan.Doubled.ofJson_eq_none {v : Value} (h : RunPlan.Doubled v) (place : Place) :
    RunPlan.ofJson place v = none := by
  refine Option.eq_none_iff_forall_ne_some.2 fun p hp => ?_
  obtain ⟨slots, hslots, -⟩ := Option.bind_eq_some_iff.1 hp
  obtain ⟨hworkload, hloop⟩ := RunPlan.ofJson_eq_some hp hslots
  cases h with
  | own hname h =>
    rw [slotsOf_eq_none RunPlan.fields_nodup hname h.two_le] at hslots
    contradiction
  | loop hv hname h =>
    have hslot := hv.slot RunPlan.fields_nodup (by decide) hslots
    have hread := hloop _ hslot
    rw [LoopPlan.ofJson_of_givesTwice hname h] at hread
    contradiction
  | tag hv h =>
    have hslot := hv.slot RunPlan.fields_nodup (by decide) hslots
    have hread := hworkload _ hslot
    rw [Workload.ofJson_of_tag_twice h] at hread
    contradiction
  | count hv hkind h =>
    have hslot := hv.slot RunPlan.fields_nodup (by decide) hslots
    have hread := hworkload _ hslot
    rw [Workload.ofJson_of_count_twice hkind h] at hread
    contradiction

/-! ## Texts -/

/-- Every text that spells a plan is read as that plan, if what is unknown in its workload can be
used; and no text that gives a field twice is read as any plan. -/
theorem RunPlan.read_of_spelling :
    (∀ (p : RunPlan) (v : Value) (cs : List Char), FloatReadsBack p.loop.tolerance →
      p.Spelt (fun u => u.Usable ∧ u.Shallow 2) v → Spelling v.tokens cs →
        decode RunPlan.ofJson (String.ofList cs) = some p) ∧
    ∀ (text : String) (v : Value), Value.parse text = some v → RunPlan.Doubled v →
      decode RunPlan.ofJson text = none ∧ RunPlan.parse text = .error .json := by
  constructor
  · intro p v cs htolerance hspelt hspelling
    rw [decode, Value.parse_of_spelling hspelling, Option.bind_some]
    refine RunPlan.ofJson_of_spelt htolerance (by decide) ?_ hspelt
    rintro u ⟨husable, hshallow⟩
    exact husable.keepable hshallow
  · intro text v hparse hdoubled
    have hdecode : decode RunPlan.ofJson text = none := by
      rw [decode, hparse, Option.bind_some, hdoubled.ofJson_eq_none]
    refine ⟨hdecode, ?_⟩
    rw [RunPlan.parse, hdecode]

/-- A number that no binary64 number can stand for. -/
def hugeNumber : Value := .number ⟨false, [1], [], some ⟨false, none, [4, 0, 0]⟩⟩

theorem hugeNumber_proper : hugeNumber.Proper := by
  refine Value.number_proper ?_
  constructor <;> simp

/-- A loop plan that is standard but for its warm-up. -/
def LoopPlan.warmed : LoopPlan := { LoopPlan.standard with warmup := 5 }

/-- A plan that differs from the standard one here and there. -/
def RunPlan.adjusted : RunPlan :=
  { RunPlan.standard with cores := 3, workload := .spin 7, loop := .warmed, tickPeriod := 250 }

/-- A spelling of the adjusted plan: its fields out of order, with unknown members at all levels. -/
def RunPlan.shuffled : Value :=
  .record [("tick_period_us", .ofWord 250), ("later", .array [hugeNumber, .text none]),
    ("workload", .record [("x", .array [.array []]), ("iterations", .ofNat 7),
      ("kind", .ofString "spin")]),
    ("sampler", .record [("note", .null), ("warmup", .ofWord 5)]), ("cores", .ofWord 3)]

/-- A plan with one core given twice. -/
def RunPlan.repeated : Value :=
  .record [("cores", .ofNat 1), ("later", .null), ("cores", .ofNat 1)]

theorem RunPlan.spelt_shuffled :
    RunPlan.adjusted.Spelt (fun u => u.Usable ∧ u.Shallow 2) RunPlan.shuffled := by
  have hworkload : Spells (Workload.spin 7).rules (fun u => u.Usable ∧ u.Shallow 2)
      (.record [("x", .array [.array []]), ("iterations", .ofNat 7), ("kind", .ofString "spin")]) := by
    refine Spells.insert ?_ ?_ [] (Spells.perm (List.Perm.swap ..) ?_)
    · simp [Workload.rules, Workload.ownRules]
    · simp [Value.Usable, Value.tokens, itemTokens, Token.Usable, Value.Shallow, Value.nesting,
        itemsNesting, deepest]
    · exact Workload.spelt_toJson (w := .spin 7) fun u husable hflat =>
        ⟨husable, Value.shallow_of_flat hflat (by decide)⟩
  have hloop : LoopPlan.warmed.Spelt (.record [("note", .null), ("warmup", .ofWord 5)]) := by
    refine ⟨by simp, ?_⟩
    simp [LoopPlan.rules, FieldRule.Met, given_cons_other, LoopPlan.warmed]
  refine ⟨by simp, ?_⟩
  simp [RunPlan.rules, FieldRule.Met, given_cons_other, RunPlan.adjusted, RunPlan.standard,
    hworkload, hloop]

theorem RunPlan.read_of_spelling_shuffled :
    FloatReadsBack RunPlan.adjusted.loop.tolerance ∧
      RunPlan.adjusted.Spelt (fun u => u.Usable ∧ u.Shallow 2) RunPlan.shuffled ∧
      Spelling RunPlan.shuffled.tokens (RunPlan.shuffled.prettyChars 0) ∧
      decode RunPlan.ofJson RunPlan.shuffled.pretty = some RunPlan.adjusted ∧
      Value.parse RunPlan.repeated.pretty = some RunPlan.repeated ∧
      RunPlan.Doubled RunPlan.repeated ∧
      decode RunPlan.ofJson RunPlan.repeated.pretty = none ∧
      RunPlan.parse RunPlan.repeated.pretty = .error .json := by
  have htolerance : FloatReadsBack RunPlan.adjusted.loop.tolerance := by
    unfold FloatReadsBack
    decide +kernel
  have hproper : RunPlan.shuffled.Proper := by
    have htext : (Value.text none).Proper := by
      simp [Value.Proper, Value.tokens, Token.Proper]
    have hend : ItemsProper [] := by
      simp [ItemsProper, itemTokens, Token.Proper]
    simp [RunPlan.shuffled, Value.Proper.record_iff, Value.Proper.array_iff,
      ItemsProper.cons_iff, hugeNumber_proper, htext, hend]
  have hspelling := RunPlan.shuffled.spelling_prettyChars 0 hproper
    (show EndsNumeral [] from trivial) .done
  rw [List.append_nil, List.append_nil] at hspelling
  have hread := RunPlan.read_of_spelling.1 _ _ _ htolerance RunPlan.spelt_shuffled hspelling
  have hparse : Value.parse RunPlan.repeated.pretty = some RunPlan.repeated := by
    refine Value.parse_pretty ?_
    simp [RunPlan.repeated, Value.Proper.record_iff]
  have hdoubled : RunPlan.Doubled RunPlan.repeated := by
    refine .own (by decide : "cores" ∈ RunPlan.fields) ?_
    exact ⟨[], .ofNat 1, [(some "later", .null)], .ofNat 1, [], rfl⟩
  have hnone := RunPlan.read_of_spelling.2 _ _ hparse hdoubled
  exact ⟨htolerance, RunPlan.spelt_shuffled, hspelling, hread, hparse, hdoubled, hnone⟩

/-- A spelling of the standard plan with an unknown member in its workload. -/
def RunPlan.withUnknown (u : Value) : Value :=
  .record [("workload", .record [("kind", .ofString "null"), ("x", u)])]

/-- An object with one member, the name of which is no text. -/
def RunPlan.nameless : Value := .object [(none, .null)]

theorem RunPlan.spelt_withUnknown {u : Value} (hu : u.Shallow 2) :
    RunPlan.standard.Spelt (fun w => w.Shallow 2) (RunPlan.withUnknown u) := by
  have hworkload : Spells Workload.null.rules (fun w => w.Shallow 2)
      (.record [("kind", .ofString "null"), ("x", u)]) := by
    refine Spells.insert ?_ hu [(some "kind", .ofString "null")] ?_
    · simp [Workload.rules, Workload.ownRules]
    · exact Workload.spelt_toJson (w := .null) fun w _ hflat =>
        Value.shallow_of_flat hflat (by decide)
  refine ⟨by simp, ?_⟩
  simp [RunPlan.rules, FieldRule.Met, given_cons_other, RunPlan.standard, hworkload]

theorem RunPlan.withUnknown_proper {u : Value} (hu : u.Proper) :
    (RunPlan.withUnknown u).Proper := by
  simp [RunPlan.withUnknown, Value.Proper.record_iff, hu]

/-- Unknown members of the workload have to be usable, however deep they may be nested: with a
number that is out of range, or a text that is none, the plan is not read. Nor is it with any member
the name of which is no text. -/
theorem RunPlan.unusable_unread :
    (¬ ∀ (p : RunPlan) (v : Value) (cs : List Char), FloatReadsBack p.loop.tolerance →
      p.Spelt (fun u => u.Shallow 2) v → Spelling v.tokens cs →
        decode RunPlan.ofJson (String.ofList cs) = some p) ∧
    RunPlan.standard.Spelt (fun w => w.Shallow 2) (RunPlan.withUnknown hugeNumber) ∧
    decode RunPlan.ofJson (RunPlan.withUnknown hugeNumber).compact = none ∧
    RunPlan.standard.Spelt (fun w => w.Shallow 2) (RunPlan.withUnknown (.text none)) ∧
    decode RunPlan.ofJson (RunPlan.withUnknown (.text none)).compact = none ∧
    decode RunPlan.ofJson RunPlan.nameless.compact = none := by
  have hnone : ∀ v ∈ [RunPlan.withUnknown hugeNumber, RunPlan.withUnknown (.text none),
      RunPlan.nameless], v.Proper → decode RunPlan.ofJson v.compact = none := by
    have hread : ∀ v ∈ [RunPlan.withUnknown hugeNumber, RunPlan.withUnknown (.text none),
        RunPlan.nameless], RunPlan.ofJson .top v = none := by
      decide +kernel
    intro v hv hproper
    rw [decode, Value.parse_compact hproper, Option.bind_some, hread v hv]
  have htext : (Value.text none).Proper := by
    simp [Value.Proper, Value.tokens, Token.Proper]
  have hnameless : RunPlan.nameless.Proper := by
    simp [RunPlan.nameless, Value.Proper, Value.tokens, memberTokens, Token.Proper]
  have hhuge := RunPlan.withUnknown_proper hugeNumber_proper
  have hflat : ∀ u : Value, u.nesting = 0 →
      RunPlan.standard.Spelt (fun w => w.Shallow 2) (RunPlan.withUnknown u) :=
    fun u hu => RunPlan.spelt_withUnknown (Value.shallow_of_flat hu (by decide))
  refine ⟨?_, hflat _ rfl, hnone _ (by simp) hhuge, hflat _ rfl,
    hnone _ (by simp) (RunPlan.withUnknown_proper htext), hnone _ (by simp) hnameless⟩
  intro hall
  have htolerance : FloatReadsBack RunPlan.standard.loop.tolerance := by
    unfold FloatReadsBack
    decide +kernel
  have hspelling := (RunPlan.withUnknown hugeNumber).spelling_tokenChars hhuge
    (show EndsNumeral [] from trivial) .done
  rw [List.append_nil, List.append_nil] at hspelling
  have hread := hall _ _ _ htolerance (hflat _ rfl) hspelling
  exact Option.some_ne_none _ (hread.symm.trans (hnone _ (by simp) hhuge))

end LatencyGauge
