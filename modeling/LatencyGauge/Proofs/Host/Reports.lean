/-
What a run reports. However its cores interleave, a run that succeeds has an entry for each core, in
their order, with the role that the plan gives it and what a core of that role produces, and the
primaries have measurements that suit the plan. The simulated schedule is one of these runs. A plan
that breaks a rule is refused before any core does a step.
-/
import LatencyGauge.Proofs.Host.Measurements
import LatencyGauge.Proofs.Host.Stray

namespace LatencyGauge

open Function

variable {p : RunPlan} {m : Machine} {i n : Nat}

/-! ## Whole runs -/

/-- A machine that runs a plan, after so many events at most. -/
structure Machine.Told (p : RunPlan) (n : Nat) (m : Machine) : Prop where
  runs : m.Runs p
  told : ∀ i, (m.position i).Told p n

theorem Machine.told_start (p : RunPlan) : (Machine.start p).Told p 0 where
  runs := Machine.runs_start p
  told i := by
    rcases Nat.lt_or_ge i p.cores.toNat with hi | hi
    · rw [Machine.position_start hi]
      cases Role.assign p i <;> trivial
    · rw [Machine.position_of_le _ ((Machine.runs_start p).size ▸ hi)]
      trivial

theorem Machine.Told.step (hsamples : p.loop.samples ≠ 0) (h : m.Told p n) (e : Event) :
    (m.step e).Told p (n + 1) := by
  refine ⟨h.runs.step e, fun j => ?_⟩
  have hmoved := m.step_moved e
  generalize (m.step e).shared = s' at hmoved
  generalize (m.step e).position = f' at hmoved
  have hothers := (h.told j).mono (Nat.le_succ n)
  cases hmoved with
  | @core i r hi =>
    rw [h.runs.plan]
    rcases eq_or_ne j i with rfl | hne
    · rw [update_self]
      exact (h.told j).step hsamples
    · rwa [update_of_ne hne]
  | @loss i hi hwork =>
    rcases eq_or_ne j i with rfl | hne
    · rw [update_self]
      trivial
    · rwa [update_of_ne hne]
  | still => exact hothers

theorem Machine.Told.run (hsamples : p.loop.samples ≠ 0) (h : m.Told p n) (events : List Event) :
    (m.run events).Told p (n + events.length) := by
  induction events generalizing m n with
  | nil => exact h
  | cons e events ih =>
    rw [List.length_cons, Nat.add_comm events.length, ← Nat.add_assoc]
    exact ih (h.step hsamples e)

/-! ## Results in order -/

/-- The results of a run that succeeds are those of its cores, in their order. -/
theorem eq_map_of_resultsFrom {k : Nat} {xs : List Position} {os : List Outcome}
    (hends : ∀ x ∈ xs, x = .lost ∨ ∃ o, x = .exited (.ok o)) (h : resultsFrom k xs = .ok os) :
    xs = os.map fun o => .exited (.ok o) := by
  induction xs generalizing k os with
  | nil =>
    cases h
    rfl
  | cons x xs ih =>
    rcases hends x List.mem_cons_self with rfl | ⟨o, rfl⟩
    · rw [resultsFrom_lost] at h
      cases h
    · rw [resultsFrom_exited] at h
      cases hrest : resultsFrom (k + 1) xs with
      | error f =>
        rw [hrest] at h
        cases h
      | ok rest =>
        rw [hrest] at h
        cases h
        rw [List.map_cons, ← ih (fun y hy => hends y (List.mem_cons_of_mem _ hy)) hrest]

/-- What a core of a role produces. -/
inductive Outcome.Suits : Role → Outcome → Prop
  | measured (measurement : Measurement) : Suits .primary (.measured measurement)
  | served (sender requests : UInt64) : Suits (.receiver sender) (.served requests)
  | flushed (flushes : UInt64) : Suits .flusher (.flushed flushes)
  | interfered (rounds : Rounds) : Suits .interferer (.interfered rounds)
  | idle : Suits .idle .idle

theorem Position.Fills.outcome_suits {role : Role} {o : Outcome}
    (h : (Position.exited (.ok o)).Fills p i role) : o.Suits role := by
  cases h with
  | primary h => cases h with | after => exact .measured _
  | receiver h => cases h with | after => exact .served _ _
  | flusher h => cases h with | after => exact .flushed _
  | interferer h => cases h with | after => exact .interfered _
  | idle h => cases h with | after => exact .idle

theorem Machine.report_eq_ok {h : HostInfo} {report : RunReport}
    (hreport : m.finish.report h = .ok report) :
    ∃ os, resultsFrom 0 m.cores.toList = .ok os ∧ report.plan = m.plan ∧
      report.cores = os.zipIdx.map fun (o, core) => coreReport m.plan h core o := by
  have houtcomes : m.finish.outcomes = resultsFrom 0 m.cores.toList := m.finish.outcomes_eq
  rw [Machine.report, houtcomes] at hreport
  cases hos : resultsFrom 0 m.cores.toList with
  | error f =>
    rw [hos] at hreport
    cases hreport
  | ok os =>
    rw [hos] at hreport
    cases hreport
    exact ⟨os, rfl, rfl, rfl⟩

/-! ## Reports -/

/-- A report in which every core has its entry, after so many events at most. -/
structure RunReport.Complete (p : RunPlan) (n : Nat) (report : RunReport) : Prop where
  plan : report.plan = p
  length : report.cores.length = p.cores.toNat
  entries : ∀ (i : Nat) (c : CoreReport), report.cores[i]? = some c →
    c.core.toNat = i ∧ c.role = Role.assign p i ∧ c.outcome.Suits c.role
  measured : report.measurements.map (fun e => e.1.toNat) = List.range p.primaries.toNat
  measurements : ∀ core measurement, (core, measurement) ∈ report.measurements →
    measurement.Suits p n

theorem CoreReport.measurement?_eq_some_iff {c : CoreReport} {core : UInt64}
    {measurement : Measurement} : c.measurement? = some (core, measurement) ↔
      c.core = core ∧ c.outcome = .measured measurement := by
  unfold CoreReport.measurement?
  split
  case h_1 taken heq => simp [heq]
  case h_2 hnone => simpa using fun _ => hnone measurement

theorem CoreReport.measures_iff {c : CoreReport} (h : c.outcome.Suits c.role) :
    c.measurement?.isSome = true ↔ c.role = .primary := by
  obtain ⟨core, role, pinned, outcome⟩ := c
  dsimp only at h
  cases h <;> simp [CoreReport.measurement?]

/-- Entries from core `k` on, of which the ones before `b` measure. -/
theorem measured_of_entries {cores : List CoreReport} {k b : Nat}
    (h : ∀ j c, cores[j]? = some c →
      c.core.toNat = k + j ∧ (c.measurement?.isSome = true ↔ k + j < b)) :
    (cores.filterMap CoreReport.measurement?).map (fun e => e.1.toNat) =
      List.range' k (min cores.length (b - k)) := by
  induction cores generalizing k with
  | nil => simp
  | cons c cores ih =>
    obtain ⟨hcore, hmeasures⟩ := h 0 c rfl
    have hrest := ih (k := k + 1) fun j c' hc' => by
      rw [Nat.add_assoc, Nat.add_comm 1 j]
      exact h (j + 1) c' hc'
    rw [Nat.add_zero] at hcore hmeasures
    cases hmeasurement : c.measurement? with
    | none =>
      rw [hmeasurement] at hmeasures
      have hle : b ≤ k := Nat.not_lt.1 fun hlt => by simpa using hmeasures.2 hlt
      rw [List.filterMap_cons_none hmeasurement, hrest, Nat.sub_eq_zero_of_le hle,
        Nat.sub_eq_zero_of_le (Nat.le_succ_of_le hle)]
      simp
    | some e =>
      obtain ⟨core, measurement⟩ := e
      rw [hmeasurement] at hmeasures
      have hlt : k < b := hmeasures.1 rfl
      have hlength : min (c :: cores).length (b - k) = min cores.length (b - (k + 1)) + 1 := by
        rw [List.length_cons]
        omega
      rw [List.filterMap_cons_some hmeasurement, List.map_cons, hrest, hlength, List.range'_succ,
        ← (CoreReport.measurement?_eq_some_iff.1 hmeasurement).1, hcore]

/-- The report of a machine that has come to its end. -/
theorem Machine.Told.complete {lost : Nat} (hfits : p.Fits) (htold : m.Told p n)
    (hstands : m.Stands p lost) (hover : m.over = true) {h : HostInfo} {report : RunReport}
    (hreport : m.finish.report h = .ok report) : report.Complete p n := by
  obtain ⟨os, hos, hplan, hcores⟩ := Machine.report_eq_ok hreport
  have hexited := eq_map_of_resultsFrom (hstands.ends hover) hos
  have hlength : os.length = p.cores.toNat := by
    rw [← hstands.runs.size, ← Array.length_toList, hexited, List.length_map]
  -- the entry of a core has what the core came to its end with
  have hentry : ∀ i c, report.cores[i]? = some c → ∃ o, i < p.cores.toNat ∧
      c = coreReport p h i o ∧ m.position i = .exited (.ok o) := by
    intro i c hc
    rw [hcores, List.getElem?_map, Option.map_eq_some_iff] at hc
    obtain ⟨⟨o, core⟩, ho, rfl⟩ := hc
    rw [List.getElem?_zipIdx, Option.map_eq_some_iff] at ho
    obtain ⟨o', ho', heq⟩ := ho
    cases heq
    have hpos : m.cores[i]? = some (.exited (.ok o)) := by
      rw [← Array.getElem?_toList, hexited, List.getElem?_map, ho']
      rfl
    obtain ⟨hi, hposition⟩ := hstands.runs.of_getElem? hpos
    rw [Nat.zero_add, hstands.runs.plan]
    exact ⟨o, hi, rfl, hposition⟩
  have hentries : ∀ i c, report.cores[i]? = some c →
      c.core.toNat = i ∧ c.role = Role.assign p i ∧ c.outcome.Suits c.role := by
    intro i c hc
    obtain ⟨o, hi, rfl, hposition⟩ := hentry i c hc
    have hfills := hstands.formed.fills i hi
    rw [hposition] at hfills
    refine ⟨?_, rfl, hfills.outcome_suits⟩
    exact UInt64.toNat_ofNat_of_lt' (hi.trans p.cores.toNat_lt)
  have hsize : report.cores.length = p.cores.toNat := by
    rw [hcores, List.length_map, List.length_zipIdx, hlength]
  have hmeasured : report.measurements.map (fun e => e.1.toNat) =
      List.range' 0 (min report.cores.length (p.primaries.toNat - 0)) :=
    measured_of_entries fun j c hc => by
      obtain ⟨hcore, hrole, hsuits⟩ := hentries j c hc
      rw [Nat.zero_add, CoreReport.measures_iff hsuits, hrole, Role.assign_eq_primary_iff]
      exact ⟨hcore, Iff.rfl⟩
  rw [hsize, Nat.sub_zero, Nat.min_eq_right hfits.primaries.2, ← List.range_eq_range'] at hmeasured
  refine ⟨hplan.trans hstands.runs.plan, hsize, hentries, hmeasured, ?_⟩
  intro core measurement hmem
  obtain ⟨c, hc, hmeasurement⟩ := List.mem_filterMap.1 hmem
  obtain ⟨i, hi⟩ := List.mem_iff_getElem?.1 hc
  obtain ⟨o, -, rfl, hposition⟩ := hentry i c hi
  obtain ⟨-, rfl⟩ := CoreReport.measurement?_eq_some_iff.1 hmeasurement
  have hmeasures := htold.told i
  rw [hposition] at hmeasures
  exact hmeasures

/-! ## Simulated runs -/

theorem Machine.run_append (m : Machine) (events events' : List Event) :
    m.run (events ++ events') = (m.run events).run events' := List.foldl_append

/-- Each core of a sweep does a step. -/
theorem Machine.sweepFrom_eq_run (reading : Nat → Reading) (m : Machine) (core left : Nat) :
    ∃ events, sweepFrom (fun core m => Machine.stepCore core (reading core) m) core left m =
      m.run events := by
  induction left generalizing m core with
  | zero => exact ⟨[], rfl⟩
  | succ left ih =>
    obtain ⟨events, hrest⟩ := ih (m.stepCore core (reading core)) (core + 1)
    exact ⟨.core core (reading core) :: events, hrest⟩

theorem Machine.turn_eq_run (turn : Nat) (m : Machine) :
    ∃ events, (Machine.turn (turn, m)).2 = m.run events := by
  obtain ⟨events, hsweep⟩ := Machine.sweepFrom_eq_run (simulatedReading m.cores.size turn) m 0
    m.cores.size
  simp only [Machine.turn, sweep, hsweep]
  split
  · refine ⟨events ++ [.timer], ?_⟩
    rw [Machine.run_append]
    rfl
  · exact ⟨events, rfl⟩

/-- The simulated schedule is one of the orders in which events can happen. -/
theorem RunPlan.outcome_of_simulate {h : HostInfo} {fuel : Nat} {result : Except Fault RunReport}
    {lines : List String} (hsimulate : p.simulate h fuel = some (result, lines)) :
    ∃ events, p.outcome h events = some result := by
  unfold RunPlan.simulate at hsimulate
  cases hcheck : p.check with
  | error v =>
    rw [hcheck] at hsimulate
    cases hsimulate
    exact ⟨[], by rw [RunPlan.outcome, hcheck]⟩
  | ok =>
    rw [hcheck, Option.map_eq_some_iff] at hsimulate
    obtain ⟨⟨turn, m⟩, hends, heq⟩ := hsimulate
    cases heq
    have hover := stop_of_iterate hends
    have hrun : ∃ events, m = (Machine.start p).run events := by
      refine iterate_invariant (P := fun s => ∃ events, s.2 = (Machine.start p).run events)
        ?_ ⟨[], rfl⟩ hends
      rintro ⟨turn, m⟩ - ⟨events, rfl⟩
      obtain ⟨more, hturn⟩ := Machine.turn_eq_run turn ((Machine.start p).run events)
      exact ⟨events ++ more, hturn.trans (Machine.run_append ..).symm⟩
    obtain ⟨events, rfl⟩ := hrun
    exact ⟨events, (RunPlan.outcome_eq hcheck h events).trans (if_pos hover)⟩

/-! ## What every run reports -/

/-- However its events are ordered, a run that succeeds is one of a valid plan and reports on it
completely; and a plan that breaks a rule has no other result than that, whatever might happen, with
nothing sent to the sink. -/
theorem RunPlan.outcome_complete (p : RunPlan) (h : HostInfo) :
    (∀ events report, p.outcome h events = some (.ok report) →
      p.Valid ∧ report.Complete p events.length) ∧
    (∀ fuel report lines, p.simulate h fuel = some (.ok report, lines) →
      p.Valid ∧ ∃ n, report.Complete p n) ∧
    ∀ v, p.check = .error v →
      (∀ events, p.outcome h events = some (.error (.invalidPlan v))) ∧
        ∀ fuel, p.simulate h fuel = some (.error (.invalidPlan v), []) := by
  have hcomplete : ∀ events report, p.outcome h events = some (.ok report) →
      p.Valid ∧ report.Complete p events.length := by
    intro events report hreport
    have hvalid : p.Valid := by
      cases hcheck : p.check with
      | ok => exact hcheck
      | error v =>
        rw [RunPlan.outcome, hcheck] at hreport
        cases hreport
    have haccepted := RunPlan.valid_iff_accepted.1 hvalid
    have hsamples := ((LoopPlan.valid_iff p.loop).1 haccepted.loop).1
    -- the runs of the other valid plans do not succeed
    have hunwrapped : p.Unwrapped := by
      by_contra hwrapped
      obtain ⟨c, -, hastray⟩ := haccepted.astray hwrapped
      exact (hastray events).2.2 h report hreport
    have hfits : p.Fits := ⟨haccepted, hunwrapped⟩
    rw [RunPlan.outcome_eq hvalid] at hreport
    split at hreport
    case isFalse => cases hreport
    case isTrue hover =>
      obtain ⟨lost, hstands⟩ := (Machine.stands_start hfits).run hfits events
      have htold := (Machine.told_start p).run hsamples events
      rw [Nat.zero_add] at htold
      exact ⟨hvalid, htold.complete hfits hstands hover (Option.some.inj hreport)⟩
  refine ⟨hcomplete, fun fuel report lines hsimulate => ?_, fun v hcheck => ⟨fun events => ?_,
    fun fuel => ?_⟩⟩
  · obtain ⟨events, hreport⟩ := RunPlan.outcome_of_simulate hsimulate
    obtain ⟨hvalid, hreports⟩ := hcomplete events report hreport
    exact ⟨hvalid, _, hreports⟩
  · rw [RunPlan.outcome, hcheck]
  · rw [RunPlan.simulate, hcheck]

/-- A host without pinned cores. -/
def unpinned : HostInfo := ⟨"clock", 1, fun _ => false⟩

theorem RunPlan.outcome_complete_brief :
    ∃ report, brief.outcome unpinned (inTurns 46) = some (.ok report) ∧
      report.Complete brief 138 := by
  have hvalid : brief.Valid := by decide
  have hfits := hvalid.fits (by decide)
  have hover : ((Machine.start brief).run (inTurns 46)).over = true := by decide +kernel
  have hfinished : ((Machine.start brief).run (inTurns 46)).cores.toList.all
      Position.finished = true := by decide +kernel
  have hpresent : Position.lost ∉ ((Machine.start brief).run (inTurns 46)).cores.toList :=
    fun hmem => by simpa [Position.finished] using List.all_eq_true.1 hfinished _ hmem
  obtain ⟨lost, hstands⟩ := (Machine.stands_start hfits).run hfits (inTurns 46)
  obtain ⟨os, hos⟩ := resultsFrom_isOk (k := 0) (hstands.ends hover) hpresent
  obtain ⟨report, hreport⟩ := (Machine.report_finish _ unpinned).2 os hos
  have houtcome : brief.outcome unpinned (inTurns 46) = some (.ok report) := by
    rw [RunPlan.outcome_eq hvalid, if_pos hover, hreport]
  have hlength : (inTurns 46).length = 138 := by simp [inTurns]
  rw [← hlength]
  exact ⟨report, houtcome, ((RunPlan.outcome_complete brief unpinned).1 _ _ houtcome).2⟩

end LatencyGauge
