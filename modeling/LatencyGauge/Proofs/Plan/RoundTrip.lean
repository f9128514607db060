/-
Plans and their texts. A plan that breaks no rule is read back from the text that is written for it,
and that is so again for every plan that was read: the only thing asked for is that the text of its
tolerance reads back as the same number.
-/
import LatencyGauge.Plan.Json
import LatencyGauge.Proofs.Json.Records

namespace LatencyGauge

open Json

/-! ## Choices -/

theorem FailurePolicy.ofJson_name (place : Place) (f : FailurePolicy) :
    FailurePolicy.ofJson place (.ofString f.name) = some f := by
  cases f <;> rfl

theorem Background.ofJson_name (place : Place) (b : Background) :
    Background.ofJson place (.ofString b.name) = some b := by
  cases b <;> rfl

theorem Payload.ofJson_name (place : Place) (k : Payload) :
    Payload.ofJson place (.ofString k.name) = some k := by
  cases k <;> rfl

theorem nullable_wordOrNull (place : Place) (n : Option UInt64) :
    nullable word place (wordOrNull n) = some n := by
  cases n with
  | none => rfl
  | some n => exact nullable_some place nofun (word_ofWord place n)

theorem nullable_stringOrNull (place : Place) (s : Option String) :
    nullable string place (stringOrNull s) = some s := by
  cases s <;> rfl

theorem wordOrNull_proper (n : Option UInt64) : (wordOrNull n).Proper := by
  cases n with
  | none => exact Value.null_proper
  | some n => exact Value.ofWord_proper n

theorem stringOrNull_proper (s : Option String) : (stringOrNull s).Proper := by
  cases s with
  | none => exact Value.null_proper
  | some s => exact Value.ofString_proper s

/-! ## Workloads -/

theorem Workload.toJson_proper (w : Workload) : w.toJson.Proper := by
  cases w <;> simp [Workload.toJson, Value.Proper.record_iff]

/-- A workload is small and flat, so it can be kept whole. -/
theorem Workload.toJson_keepable {depth : Nat} (hdepth : depth < deepest) (w : Workload) :
    w.toJson.keepable depth = true := by
  cases w with
  | spin iterations =>
    have hcount : (Numeral.ofNat iterations.toNat).float?.isSome = true :=
      Numeral.float?_ofNat_isSome (iterations.toNat_lt.trans (by decide))
    simp [Workload.toJson, Value.record, Value.ofString, Value.ofNat, Value.keepable,
      keepableMembers, hdepth, hcount]
  | _ =>
    simp [Workload.toJson, Value.record, Value.ofString, Value.keepable, keepableMembers, hdepth]

/-- A workload is read back from its value. -/
theorem Workload.ofJson_toJson {place : Place} (hdepth : place.depth < deepest) (w : Workload) :
    Workload.ofJson place w.toJson = some w := by
  have hkeepable : (place.kept || w.toJson.keepable place.depth) = true := by
    rw [w.toJson_keepable hdepth, Bool.or_true]
  unfold Workload.ofJson tagged
  rw [if_pos hkeepable]
  cases w with
  | spin iterations =>
    have hsplit : splitTag "kind" (Workload.spin iterations).toJson =
        some (.ofString "spin", .record [("iterations", .ofNat iterations.toNat)]) := rfl
    have hslots : slotsOf ["iterations"] false (.record [("iterations", .ofNat iterations.toNat)]) =
        some [some (.ofNat iterations.toNat)] := rfl
    have hkind : variant WorkloadKind.table place.kept (.ofString "spin") = some .spin := rfl
    simp [hsplit, hkind, WorkloadKind.ofJson, sole, hslots, required_some]
  | _ => rfl

/-! ## Plans -/

theorem LoopPlan.toJson_proper (l : LoopPlan) : l.toJson.Proper := by
  simp [LoopPlan.toJson, Value.Proper.record_iff, wordOrNull_proper]

theorem RunPlan.toJson_proper (p : RunPlan) : p.toJson.Proper := by
  simp [RunPlan.toJson, Value.Proper.record_iff, stringOrNull_proper, Workload.toJson_proper,
    LoopPlan.toJson_proper]

theorem LoopPlan.fields_nodup : LoopPlan.fields.Nodup := by decide

theorem RunPlan.fields_nodup : RunPlan.fields.Nodup := by decide

/-- A loop plan is read back from its value. -/
theorem LoopPlan.ofJson_toJson {l : LoopPlan} (htolerance : FloatReadsBack l.tolerance)
    (place : Place) : LoopPlan.ofJson place l.toJson = some l := by
  have hslots : slotsOf LoopPlan.fields true l.toJson = _ :=
    slotsOf_record LoopPlan.fields_nodup true
      [.ofWord l.samples, wordOrNull l.maxAttempts, .ofWord l.warmup, .ofWord l.baseline,
        .ofWord l.ceiling, .ofWord l.quiescence, .ofWord l.settle, .ofString l.onFailure.name,
        .ofFloat l.tolerance] rfl
  refine read_then hslots ?_
  refine read_then (word_ofWord place.inside l.samples) ?_
  refine read_then (nullable_wordOrNull place.inside l.maxAttempts) ?_
  refine read_then (word_ofWord place.inside l.warmup) ?_
  refine read_then (word_ofWord place.inside l.baseline) ?_
  refine read_then (word_ofWord place.inside l.ceiling) ?_
  refine read_then (word_ofWord place.inside l.quiescence) ?_
  refine read_then (word_ofWord place.inside l.settle) ?_
  refine read_then (FailurePolicy.ofJson_name place.inside l.onFailure) ?_
  refine read_then (htolerance.float_eq place.inside) ?_
  rfl

/-- A run plan is read back from its value. -/
theorem RunPlan.ofJson_toJson {p : RunPlan} (htolerance : FloatReadsBack p.loop.tolerance)
    {place : Place} (hdepth : place.depth + 1 < deepest) :
    RunPlan.ofJson place p.toJson = some p := by
  have hslots : slotsOf RunPlan.fields true p.toJson = _ :=
    slotsOf_record RunPlan.fields_nodup true
      [.ofWord p.cores, .ofWord p.primaries, .ofWord p.signalOffset, p.workload.toJson,
        .ofString p.background.name, .ofString p.payload.name, p.loop.toJson,
        .ofWord p.reverseBaseline, .ofWord p.tickPeriod, stringOrNull p.marker, .bool p.pinned,
        .bool p.unfiltered] rfl
  have hworkload : Workload.ofJson place.inside p.workload.toJson = some p.workload :=
    Workload.ofJson_toJson hdepth p.workload
  refine read_then hslots ?_
  refine read_then (word_ofWord place.inside p.cores) ?_
  refine read_then (word_ofWord place.inside p.primaries) ?_
  refine read_then (word_ofWord place.inside p.signalOffset) ?_
  refine read_then hworkload ?_
  refine read_then (Background.ofJson_name place.inside p.background) ?_
  refine read_then (Payload.ofJson_name place.inside p.payload) ?_
  refine read_then (LoopPlan.ofJson_toJson htolerance place.inside) ?_
  refine read_then (word_ofWord place.inside p.reverseBaseline) ?_
  refine read_then (word_ofWord place.inside p.tickPeriod) ?_
  refine read_then (nullable_stringOrNull place.inside p.marker) ?_
  refine read_then (boolean_bool place.inside p.pinned) ?_
  refine read_then (boolean_bool place.inside p.unfiltered) ?_
  rfl

/-! ## Texts -/

theorem RunPlan.parse_eq_ok_iff {text : String} {p : RunPlan} :
    RunPlan.parse text = .ok p ↔ Json.decode RunPlan.ofJson text = some p ∧ p.Valid := by
  unfold RunPlan.parse RunPlan.Valid
  cases Json.decode RunPlan.ofJson text with
  | none => simp
  | some q =>
    dsimp only
    rw [Option.some_inj]
    cases hcheck : q.check with
    | ok _ =>
      rw [Except.ok.injEq]
      constructor
      · rintro rfl
        exact ⟨rfl, hcheck⟩
      · exact And.left
    | error _ =>
      rw [iff_comm]
      constructor
      · rintro ⟨rfl, hvalid⟩
        rw [hcheck] at hvalid
        contradiction
      · exact nofun

/-- A plan that breaks no rule is read back from its text. -/
theorem RunPlan.parse_text {p : RunPlan} (hvalid : p.Valid)
    (htolerance : FloatReadsBack p.loop.tolerance) : RunPlan.parse p.text = .ok p := by
  rw [RunPlan.parse_eq_ok_iff]
  refine ⟨?_, hvalid⟩
  rw [decode, RunPlan.text, Value.parse_pretty p.toJson_proper, Option.bind_some,
    RunPlan.ofJson_toJson htolerance (by decide)]

/-- A plan that breaks no rule is read back from its text; and a plan that was read from any text is
written and read again as itself, with the same text. -/
theorem RunPlan.text_round_trip :
    (∀ p : RunPlan, p.Valid → FloatReadsBack p.loop.tolerance → RunPlan.parse p.text = .ok p) ∧
    ∀ (text : String) (p : RunPlan), RunPlan.parse text = .ok p →
      FloatReadsBack p.loop.tolerance →
        ∃ q : RunPlan, RunPlan.parse p.text = .ok q ∧ q = p ∧ q.text = p.text :=
  ⟨fun _ hvalid htolerance => RunPlan.parse_text hvalid htolerance,
    fun _ p hread htolerance =>
      ⟨p, RunPlan.parse_text (RunPlan.parse_eq_ok_iff.1 hread).2 htolerance, rfl, rfl⟩⟩

/-- A plan with every kind of value, and a marker that cannot be written as it is. -/
def RunPlan.marked : RunPlan :=
  { RunPlan.standard with
    cores := 3, workload := .spin 4294967295, background := .interfere, payload := .sentinel
    loop := { LoopPlan.standard with maxAttempts := some 5, onFailure := .retry }
    reverseBaseline := greatestWord, marker := some "\"tick\\\n\x01 \u00e9", unfiltered := true }

theorem RunPlan.text_round_trip_marked :
    RunPlan.marked.Valid ∧ FloatReadsBack RunPlan.marked.loop.tolerance ∧
      RunPlan.parse RunPlan.marked.text = .ok RunPlan.marked ∧
      ∃ q : RunPlan, RunPlan.parse RunPlan.marked.text = .ok q ∧ q = RunPlan.marked ∧
        q.text = RunPlan.marked.text := by
  have hvalid : RunPlan.marked.Valid := by decide +kernel
  have htolerance : FloatReadsBack RunPlan.marked.loop.tolerance := by
    unfold FloatReadsBack
    decide +kernel
  have hread := RunPlan.text_round_trip.1 RunPlan.marked hvalid htolerance
  exact ⟨hvalid, htolerance, hread, RunPlan.text_round_trip.2 _ _ hread htolerance⟩

end LatencyGauge
