/-
Reports and their texts. Every part of a report is read back from the value that is written for it,
also where it stands inside tagged choices and so is kept before it is read; the only thing asked
for is that the texts of its numbers read back as the same numbers. So a report is read back from
its pretty text and each part from its compact one, and no two of a kind have one text.
-/
import LatencyGauge.Output.Json
import LatencyGauge.Proofs.Json.Kept
import LatencyGauge.Proofs.Plan.RoundTrip

namespace LatencyGauge

open Json

/-! ## Numbers in reports -/

/-- The texts of all these numbers read back. -/
def FloatsReadBack (xs : List Float) : Prop := ∀ x ∈ xs, FloatReadsBack x

def Summary.floats (s : Summary) : List Float := [s.mean, s.variance]

def Drift.floats (d : Drift) : List Float := [d.measured, d.relative]

def Caution.floats : Caution → List Float
  | .drift d => d.floats
  | .nothingAccepted | .budgetSpent _ _ => []

def LoopReport.floats (r : LoopReport) : List Float :=
  r.summary.toList.flatMap Summary.floats ++ r.cautions.flatMap Caution.floats

def PairReport.floats (r : PairReport) : List Float := r.forward.floats ++ r.reverse.floats

def Measurement.floats : Measurement → List Float
  | .single report unfiltered => report.floats ++ unfiltered.toList
  | .paired report => report.floats

def Outcome.floats : Outcome → List Float
  | .measured m => m.floats
  | .served _ | .flushed _ | .interfered _ | .idle => []

def CoreReport.floats (c : CoreReport) : List Float := c.outcome.floats

def RunReport.floats (r : RunReport) : List Float :=
  r.plan.loop.tolerance :: r.cyclesPerNs :: r.cores.flatMap CoreReport.floats

section Parts

variable {depth : Nat} {place : Place}

/-! ## Roles -/

theorem Role.toJson_proper (r : Role) : r.toJson.Proper := by
  cases r <;> simp [Role.toJson, Value.Proper.record_iff]

theorem Role.toJson_keepable (hdepth : depth < deepest) (r : Role) :
    r.toJson.keepable depth = true := by
  cases r <;> simpa [Role.toJson, Value.keepable_record_iff] using hdepth

/-- A role is read back from its value. -/
theorem Role.ofJson_toJson (hdepth : place.depth < deepest) (r : Role) :
    Role.ofJson place r.toJson = some r := by
  have hkeep := r.toJson_keepable hdepth
  cases r with
  | receiver sender =>
    refine (tagged_record hkeep rfl (by simp)).trans ?_
    refine read_then (slotsOf_record (by decide) false [.ofWord sender] rfl) ?_
    simp
  | _ => exact (tagged_record hkeep rfl (by simp)).trans rfl

/-! ## Counters and statistics -/

theorem Rejections.toJson_proper (r : Rejections) : r.toJson.Proper := by
  simp [Rejections.toJson, Value.Proper.record_iff]

theorem Rejections.toJson_keepable (hdepth : depth < deepest) (r : Rejections) :
    r.toJson.keepable depth = true := by
  simpa [Rejections.toJson, Value.keepable_record_iff] using hdepth

theorem Rejections.ofJson_toJson (r : Rejections) : Rejections.ofJson place r.toJson = some r := by
  refine read_then (slotsOf_record (by decide) false
    [.ofWord r.tickChanged, .ofWord r.failed, .ofWord r.clockAnomaly, .ofWord r.outlier] rfl) ?_
  simp

theorem Rounds.toJson_proper (r : Rounds) : r.toJson.Proper := by
  simp [Rounds.toJson, Value.Proper.record_iff]

theorem Rounds.toJson_keepable (hdepth : depth < deepest) (r : Rounds) :
    r.toJson.keepable depth = true := by
  simpa [Rounds.toJson, Value.keepable_record_iff] using hdepth

theorem Rounds.ofJson_toJson (r : Rounds) : Rounds.ofJson place r.toJson = some r := by
  refine read_then (slotsOf_record (by decide) false
    [.ofWord r.finished, .ofWord r.failures] rfl) ?_
  simp

theorem Summary.toJson_proper (s : Summary) : s.toJson.Proper := by
  simp [Summary.toJson, Value.Proper.record_iff]

theorem Summary.toJson_keepable (hdepth : depth < deepest) {s : Summary}
    (hfloats : FloatsReadBack s.floats) : s.toJson.keepable depth = true := by
  obtain ⟨hmean, hvariance⟩ : FloatReadsBack s.mean ∧ FloatReadsBack s.variance := by
    simpa [FloatsReadBack, Summary.floats] using hfloats
  simpa [Summary.toJson, Value.keepable_record_iff, hmean.keepable, hvariance.keepable] using hdepth

/-- A summary is read back from its value. -/
theorem Summary.ofJson_toJson {s : Summary} (hfloats : FloatsReadBack s.floats) :
    Summary.ofJson place s.toJson = some s := by
  obtain ⟨hmean, hvariance⟩ : FloatReadsBack s.mean ∧ FloatReadsBack s.variance := by
    simpa [FloatsReadBack, Summary.floats] using hfloats
  refine read_then (slotsOf_record (by decide) false
    [.ofWord s.count, .ofFloat s.mean, .ofWord s.max, .ofFloat s.variance, .ofWord s.baseline]
    rfl) ?_
  simp [hmean.float_eq, hvariance.float_eq]

theorem Drift.ofJson_toJson {d : Drift} (hfloats : FloatsReadBack d.floats) :
    Drift.ofJson place d.toJson = some d := by
  obtain ⟨hmeasured, hrelative⟩ : FloatReadsBack d.measured ∧ FloatReadsBack d.relative := by
    simpa [FloatsReadBack, Drift.floats] using hfloats
  refine read_then (slotsOf_record (by decide) false
    [.ofWord d.baseline, .ofFloat d.measured, .ofFloat d.relative] rfl) ?_
  simp [hmeasured.float_eq, hrelative.float_eq]

/-! ## Cautions -/

theorem Caution.toJson_proper (c : Caution) : c.toJson.Proper := by
  cases c <;> simp [Caution.toJson, Caution.members, Drift.members, Value.Proper.record_iff]

theorem Caution.toJson_keepable (hdepth : depth < deepest) {c : Caution}
    (hfloats : FloatsReadBack c.floats) : c.toJson.keepable depth = true := by
  cases c with
  | drift d =>
    obtain ⟨hmeasured, hrelative⟩ : FloatReadsBack d.measured ∧ FloatReadsBack d.relative := by
      simpa [FloatsReadBack, Caution.floats, Drift.floats] using hfloats
    simpa [Caution.toJson, Caution.members, Drift.members, Value.keepable_record_iff,
      hmeasured.keepable, hrelative.keepable] using hdepth
  | _ => simpa [Caution.toJson, Caution.members, Value.keepable_record_iff] using hdepth

/-- A caution is read back from its value. -/
theorem Caution.ofJson_toJson (hdepth : place.depth < deepest) {c : Caution}
    (hfloats : FloatsReadBack c.floats) : Caution.ofJson place c.toJson = some c := by
  have hkeep := Caution.toJson_keepable hdepth hfloats
  cases c with
  | nothingAccepted => exact (tagged_record hkeep rfl (by simp [Caution.members])).trans rfl
  | budgetSpent completed target =>
    refine (tagged_record hkeep rfl (by simp [Caution.members])).trans ?_
    refine read_then (slotsOf_record (by decide) false [.ofWord completed, .ofWord target] rfl) ?_
    simp
  | drift d =>
    refine (tagged_record hkeep rfl (by simp [Caution.members, Drift.members])).trans ?_
    exact Option.map_eq_some_iff.2 ⟨d, Drift.ofJson_toJson hfloats, rfl⟩

/-! ## Loop reports -/

theorem LoopReport.toJson_eq (r : LoopReport) :
    r.toJson = .record [
      ("name", .ofString r.name), ("attempts", .ofWord r.attempts),
      ("completed", .ofWord r.completed), ("accepted", .ofWord r.accepted),
      ("failed", .ofWord r.failed), ("rejected", r.rejected.toJson),
      ("summary", orNull Summary.toJson r.summary),
      ("warnings", .array (r.cautions.map Caution.toJson))] := by
  obtain ⟨_, _, _, _, _, _, summary, _⟩ := r
  cases summary <;> rfl

theorem LoopReport.toJson_proper (r : LoopReport) : r.toJson.Proper := by
  have hcautions := Value.map_proper fun c (_ : c ∈ r.cautions) => c.toJson_proper
  rw [LoopReport.toJson_eq]
  simp [Value.Proper.record_iff, r.rejected.toJson_proper, hcautions,
    orNull_proper Summary.toJson_proper]

/-- The numbers of a loop report are those of its summary and of its cautions. -/
theorem LoopReport.floats_iff {r : LoopReport} :
    FloatsReadBack r.floats ↔
      (∀ s, r.summary = some s → FloatsReadBack s.floats) ∧
        ∀ c ∈ r.cautions, FloatsReadBack c.floats := by
  simp only [FloatsReadBack, LoopReport.floats, List.forall_mem_append, List.forall_mem_flatMap,
    Option.mem_toList]

theorem LoopReport.toJson_keepable (hdepth : depth + 2 < deepest) {r : LoopReport}
    (hfloats : FloatsReadBack r.floats) : r.toJson.keepable depth = true := by
  obtain ⟨hsummary, hcautions⟩ := LoopReport.floats_iff.1 hfloats
  have hinside : depth + 1 < deepest := by omega
  have hoptional : (orNull Summary.toJson r.summary).keepable (depth + 1) = true :=
    orNull_keepable fun s hs => Summary.toJson_keepable hinside (hsummary s hs)
  have hlist : (Value.array (r.cautions.map Caution.toJson)).keepable (depth + 1) = true :=
    Value.keepable_map hinside fun c hc => Caution.toJson_keepable hdepth (hcautions c hc)
  rw [LoopReport.toJson_eq, Value.keepable_record_iff]
  refine ⟨by omega, ?_⟩
  simp [r.rejected.toJson_keepable hinside, hoptional, hlist]

/-- A loop report is read back from its value. -/
theorem LoopReport.ofJson_toJson (hdepth : place.depth + 2 < deepest) {r : LoopReport}
    (hfloats : FloatsReadBack r.floats) : LoopReport.ofJson place r.toJson = some r := by
  obtain ⟨hsummary, hcautions⟩ := LoopReport.floats_iff.1 hfloats
  have hname : string place.inside (.ofString r.name) = some r.name := rfl
  have hoptional : Json.optional Summary.ofJson place (some (orNull Summary.toJson r.summary)) =
      some r.summary :=
    nullable_orNull (fun _ _ => nofun) fun s hs => Summary.ofJson_toJson (hsummary s hs)
  have hlist : listOf Caution.ofJson place.inside (.array (r.cautions.map Caution.toJson)) =
      some r.cautions :=
    listOf_map fun c hc => Caution.ofJson_toJson hdepth (hcautions c hc)
  rw [LoopReport.toJson_eq]
  refine read_then (slotsOf_record (by decide) false
    [.ofString r.name, .ofWord r.attempts, .ofWord r.completed, .ofWord r.accepted,
      .ofWord r.failed, r.rejected.toJson, orNull Summary.toJson r.summary,
      .array (r.cautions.map Caution.toJson)] rfl) ?_
  simp [hname, hoptional, hlist, Rejections.ofJson_toJson]

theorem PairReport.toJson_proper (r : PairReport) : r.toJson.Proper := by
  simp [PairReport.toJson, Value.Proper.record_iff, LoopReport.toJson_proper]

theorem PairReport.floats_iff {r : PairReport} :
    FloatsReadBack r.floats ↔ FloatsReadBack r.forward.floats ∧ FloatsReadBack r.reverse.floats :=
  List.forall_mem_append

theorem PairReport.toJson_keepable (hdepth : depth + 3 < deepest) {r : PairReport}
    (hfloats : FloatsReadBack r.floats) : r.toJson.keepable depth = true := by
  obtain ⟨hforward, hreverse⟩ := PairReport.floats_iff.1 hfloats
  rw [PairReport.toJson, Value.keepable_record_iff]
  refine ⟨by omega, ?_⟩
  simp [LoopReport.toJson_keepable hdepth hforward, LoopReport.toJson_keepable hdepth hreverse]

/-- A pair report is read back from its value. -/
theorem PairReport.ofJson_toJson (hdepth : place.depth + 3 < deepest) {r : PairReport}
    (hfloats : FloatsReadBack r.floats) : PairReport.ofJson place r.toJson = some r := by
  obtain ⟨hforward, hreverse⟩ := PairReport.floats_iff.1 hfloats
  have hinside : place.inside.depth + 2 < deepest := hdepth
  refine read_then (slotsOf_record (by decide) false [r.forward.toJson, r.reverse.toJson] rfl) ?_
  simp [LoopReport.ofJson_toJson hinside hforward, LoopReport.ofJson_toJson hinside hreverse]

/-! ## Measurements and outcomes -/

theorem floatOrNull_eq (x : Option Float) : floatOrNull x = orNull Value.ofFloat x := by
  cases x <;> rfl

theorem Measurement.toJson_proper (m : Measurement) : m.toJson.Proper := by
  cases m with
  | single report unfiltered =>
    simp [Measurement.toJson, Value.Proper.record_iff, report.toJson_proper, floatOrNull_eq,
      orNull_proper Value.ofFloat_proper]
  | paired report => simp [Measurement.toJson, Value.Proper.record_iff, report.toJson_proper]

theorem Measurement.single_floats_iff {report : LoopReport} {unfiltered : Option Float} :
    FloatsReadBack (Measurement.single report unfiltered).floats ↔
      FloatsReadBack report.floats ∧ ∀ x, unfiltered = some x → FloatReadsBack x := by
  simp only [FloatsReadBack, Measurement.floats, List.forall_mem_append, Option.mem_toList]

theorem Measurement.toJson_keepable (hdepth : depth + 4 < deepest) {m : Measurement}
    (hfloats : FloatsReadBack m.floats) : m.toJson.keepable depth = true := by
  cases m with
  | single report unfiltered =>
    obtain ⟨hreport, hunfiltered⟩ := Measurement.single_floats_iff.1 hfloats
    have hoptional : (orNull Value.ofFloat unfiltered).keepable (depth + 1) = true :=
      orNull_keepable fun x hx => (hunfiltered x hx).keepable
    rw [Measurement.toJson, floatOrNull_eq, Value.keepable_record_iff]
    refine ⟨by omega, ?_⟩
    simp [LoopReport.toJson_keepable (by omega : depth + 1 + 2 < deepest) hreport, hoptional]
  | paired report =>
    rw [Measurement.toJson, Value.keepable_record_iff]
    refine ⟨by omega, ?_⟩
    simp [PairReport.toJson_keepable hdepth hfloats]

/-- A measurement is read back from its value. -/
theorem Measurement.ofJson_toJson (hdepth : place.depth + 4 < deepest) {m : Measurement}
    (hfloats : FloatsReadBack m.floats) : Measurement.ofJson place m.toJson = some m := by
  have hkeep := Measurement.toJson_keepable hdepth hfloats
  cases m with
  | single report unfiltered =>
    obtain ⟨hreport, hunfiltered⟩ := Measurement.single_floats_iff.1 hfloats
    let kept : Place := { place with kept := true }
    have hloop : LoopReport.ofJson kept.inside report.toJson = some report :=
      LoopReport.ofJson_toJson (show place.depth + 1 + 2 < deepest by omega) hreport
    have hoptional : Json.optional float kept (some (orNull Value.ofFloat unfiltered)) =
        some unfiltered :=
      nullable_orNull (fun x hx => (hunfiltered x hx).ne_null)
        fun x hx => (hunfiltered x hx).float_eq _
    rw [Measurement.toJson, floatOrNull_eq] at hkeep ⊢
    refine (tagged_record hkeep rfl (by simp)).trans ?_
    refine read_then (slotsOf_record (by decide) false
      [report.toJson, orNull Value.ofFloat unfiltered] rfl) ?_
    refine read_then hloop ?_
    exact read_then hoptional rfl
  | paired report =>
    refine (tagged_record hkeep rfl (by simp)).trans ?_
    refine read_then (slotsOf_record (by decide) false [report.toJson] rfl) ?_
    exact read_then (PairReport.ofJson_toJson hdepth hfloats) rfl

theorem Outcome.toJson_proper (o : Outcome) : o.toJson.Proper := by
  cases o <;>
    simp [Outcome.toJson, Value.Proper.record_iff, Measurement.toJson_proper, Rounds.toJson_proper]

theorem Outcome.toJson_keepable (hdepth : depth + 5 < deepest) {o : Outcome}
    (hfloats : FloatsReadBack o.floats) : o.toJson.keepable depth = true := by
  have hself : depth < deepest := by omega
  cases o with
  | measured m =>
    simp [Outcome.toJson, Value.keepable_record_iff, hself,
      Measurement.toJson_keepable (by omega : depth + 1 + 4 < deepest) hfloats]
  | interfered rounds =>
    simp [Outcome.toJson, Value.keepable_record_iff, hself,
      rounds.toJson_keepable (by omega : depth + 1 < deepest)]
  | _ => simp [Outcome.toJson, Value.keepable_record_iff, hself]

/-- An outcome is read back from its value. -/
theorem Outcome.ofJson_toJson (hdepth : place.depth + 5 < deepest) {o : Outcome}
    (hfloats : FloatsReadBack o.floats) : Outcome.ofJson place o.toJson = some o := by
  have hkeep := Outcome.toJson_keepable hdepth hfloats
  cases o with
  | idle => exact (tagged_record hkeep rfl (by simp)).trans rfl
  | measured m =>
    have hinside : place.depth + 1 + 4 < deepest := by omega
    refine (tagged_record hkeep rfl (by simp)).trans ?_
    refine read_then (slotsOf_record (by decide) false [m.toJson] rfl) ?_
    exact read_then (Measurement.ofJson_toJson hinside hfloats) rfl
  | served requests =>
    refine (tagged_record hkeep rfl (by simp)).trans ?_
    refine read_then (slotsOf_record (by decide) false [.ofWord requests] rfl) ?_
    simp
  | flushed flushes =>
    refine (tagged_record hkeep rfl (by simp)).trans ?_
    refine read_then (slotsOf_record (by decide) false [.ofWord flushes] rfl) ?_
    simp
  | interfered rounds =>
    refine (tagged_record hkeep rfl (by simp)).trans ?_
    refine read_then (slotsOf_record (by decide) false [rounds.toJson] rfl) ?_
    exact read_then rounds.ofJson_toJson rfl

/-! ## Run reports -/

theorem CoreReport.toJson_proper (c : CoreReport) : c.toJson.Proper := by
  simp [CoreReport.toJson, Value.Proper.record_iff, c.role.toJson_proper, c.outcome.toJson_proper]

/-- A core's report is read back from its value. -/
theorem CoreReport.ofJson_toJson (hdepth : place.depth + 6 < deepest) {c : CoreReport}
    (hfloats : FloatsReadBack c.floats) : CoreReport.ofJson place c.toJson = some c := by
  have hrole : Role.ofJson place.inside c.role.toJson = some c.role :=
    Role.ofJson_toJson (show place.depth + 1 < deepest by omega) c.role
  have houtcome : Outcome.ofJson place.inside c.outcome.toJson = some c.outcome :=
    Outcome.ofJson_toJson (show place.depth + 1 + 5 < deepest by omega) hfloats
  refine read_then (slotsOf_record (by decide) false
    [.ofWord c.core, c.role.toJson, .bool c.pinned, c.outcome.toJson] rfl) ?_
  simp [hrole, houtcome]

theorem RunReport.toJson_proper (r : RunReport) : r.toJson.Proper := by
  have hcores := Value.map_proper fun c (_ : c ∈ r.cores) => c.toJson_proper
  simp [RunReport.toJson, Value.Proper.record_iff, r.plan.toJson_proper, hcores]

theorem RunReport.floats_iff {r : RunReport} :
    FloatsReadBack r.floats ↔ FloatReadsBack r.plan.loop.tolerance ∧
      FloatReadsBack r.cyclesPerNs ∧ ∀ c ∈ r.cores, FloatsReadBack c.floats := by
  simp only [FloatsReadBack, RunReport.floats, List.forall_mem_cons, List.forall_mem_flatMap]

end Parts

/-- A run's report is read back from its value. -/
theorem RunReport.ofJson_toJson {r : RunReport} (hfloats : FloatsReadBack r.floats) :
    RunReport.ofJson .top r.toJson = some r := by
  obtain ⟨htolerance, hrate, hreports⟩ := RunReport.floats_iff.1 hfloats
  have hplan : RunPlan.ofJson Place.top.inside r.plan.toJson = some r.plan :=
    RunPlan.ofJson_toJson htolerance (by decide)
  have hclock : string Place.top.inside (.ofString r.clock) = some r.clock := rfl
  have hcores : listOf CoreReport.ofJson Place.top.inside
      (.array (r.cores.map CoreReport.toJson)) = some r.cores :=
    listOf_map fun c hc => CoreReport.ofJson_toJson (by decide) (hreports c hc)
  refine read_then (slotsOf_record (by decide) false
    [r.plan.toJson, .ofString r.clock, .ofFloat r.cyclesPerNs, .ofWord r.ticksFired,
      .array (r.cores.map CoreReport.toJson)] rfl) ?_
  simp [hplan, hclock, hrate.float_eq, hcores]

/-! ## Texts -/

/-- Values of a type are read back from their compact texts if their numbers are, so no two of them
have one text. -/
def Faithful {α : Type} (write : α → Value) (read : Reader α) (floats : α → List Float) : Prop :=
  (∀ a, FloatsReadBack (floats a) → decode read (write a).compact = some a) ∧
    ∀ a b, FloatsReadBack (floats a) → FloatsReadBack (floats b) →
      (write a).compact = (write b).compact → a = b

theorem Faithful.of_read {α : Type} {write : α → Value} {read : Reader α} {floats : α → List Float}
    (hproper : ∀ a, (write a).Proper)
    (hread : ∀ a, FloatsReadBack (floats a) → read .top (write a) = some a) :
    Faithful write read floats := by
  have hdecode : ∀ a, FloatsReadBack (floats a) → decode read (write a).compact = some a := by
    intro a ha
    rw [decode, Value.parse_compact (hproper a), Option.bind_some, hread a ha]
  refine ⟨hdecode, ?_⟩
  intro a b ha hb htexts
  have hboth := hdecode a ha
  rw [htexts, hdecode b hb] at hboth
  exact (Option.some.inj hboth).symm

/-- A run's report is read back from its text, and each of its parts from its own compact text, so
that no two parts of a kind have one text. -/
theorem RunReport.text_reads_back :
    (∀ r : RunReport, FloatsReadBack r.floats → decode RunReport.ofJson r.text = some r) ∧
    Faithful Role.toJson Role.ofJson (fun _ => []) ∧
    Faithful Caution.toJson Caution.ofJson Caution.floats ∧
    Faithful Measurement.toJson Measurement.ofJson Measurement.floats ∧
    Faithful Outcome.toJson Outcome.ofJson Outcome.floats ∧
    Faithful CoreReport.toJson CoreReport.ofJson CoreReport.floats ∧
    Faithful LoopReport.toJson LoopReport.ofJson LoopReport.floats ∧
    Faithful PairReport.toJson PairReport.ofJson PairReport.floats ∧
    Faithful Summary.toJson Summary.ofJson Summary.floats ∧
    Faithful Rejections.toJson Rejections.ofJson (fun _ => []) ∧
    Faithful Rounds.toJson Rounds.ofJson (fun _ => []) := by
  refine ⟨?_, ?_, ?_, ?_, ?_, ?_, ?_, ?_, ?_, ?_, ?_⟩
  · intro r hfloats
    rw [decode, RunReport.text, Value.parse_pretty r.toJson_proper, Option.bind_some,
      RunReport.ofJson_toJson hfloats]
  · exact .of_read Role.toJson_proper fun r _ => Role.ofJson_toJson (by decide) r
  · exact .of_read Caution.toJson_proper fun _ h => Caution.ofJson_toJson (by decide) h
  · exact .of_read Measurement.toJson_proper fun _ h => Measurement.ofJson_toJson (by decide) h
  · exact .of_read Outcome.toJson_proper fun _ h => Outcome.ofJson_toJson (by decide) h
  · exact .of_read CoreReport.toJson_proper fun _ h => CoreReport.ofJson_toJson (by decide) h
  · exact .of_read LoopReport.toJson_proper fun _ h => LoopReport.ofJson_toJson (by decide) h
  · exact .of_read PairReport.toJson_proper fun _ h => PairReport.ofJson_toJson (by decide) h
  · exact .of_read Summary.toJson_proper fun _ h => Summary.ofJson_toJson h
  · exact .of_read Rejections.toJson_proper fun r _ => r.ofJson_toJson
  · exact .of_read Rounds.toJson_proper fun r _ => r.ofJson_toJson

/-- A loop with numbers of every layout and every kind of caution. -/
def LoopReport.troubled : LoopReport where
  name := "core 0 \"map\"\n\u00e9"
  attempts := 0xffffffffffffffff
  completed := 7
  accepted := 6
  failed := 1
  rejected := ⟨1, 2, 3, 4⟩
  summary := some ⟨6, 1e17, 55, 9.0, 38⟩
  cautions := [.drift ⟨38, 1e17, -0.0⟩, .budgetSpent 7 20, .nothingAccepted]

/-- A report with a core of every kind. -/
def RunReport.varied : RunReport where
  plan := .marked
  clock := "rdtscp"
  cyclesPerNs := 2.9
  ticksFired := 3
  cores := [
    ⟨0, .primary, true, .measured (.single .troubled (some 41.5))⟩,
    ⟨1, .primary, false, .measured (.paired ⟨.troubled, { LoopReport.troubled with summary := none }⟩)⟩,
    ⟨2, .receiver 0, false, .served 12⟩,
    ⟨3, .flusher, false, .flushed 12⟩,
    ⟨4, .interferer, false, .interfered ⟨9, 2⟩⟩,
    ⟨5, .idle, true, .idle⟩]

theorem RunReport.text_reads_back_varied :
    FloatsReadBack RunReport.varied.floats ∧
      decode RunReport.ofJson RunReport.varied.text = some RunReport.varied ∧
      FloatsReadBack LoopReport.troubled.floats ∧
      decode LoopReport.ofJson LoopReport.troubled.toJson.compact = some LoopReport.troubled := by
  have hloop : FloatsReadBack LoopReport.troubled.floats := by
    unfold FloatsReadBack FloatReadsBack
    decide +kernel
  have hvaried : FloatsReadBack RunReport.varied.floats := by
    unfold FloatsReadBack FloatReadsBack
    decide +kernel
  obtain ⟨hreport, -, -, -, -, -, hloops, -⟩ := RunReport.text_reads_back
  exact ⟨hvaried, hreport _ hvaried, hloop, hloops.1 _ hloop⟩

end LatencyGauge
