/-
Runs with an operation. The warm-up calls the operation between two readings of the clock and forgets
them; the loop makes attempts at it, one after the other, and does after each what its verdict asks
for. A recorded run consists of these and of nothing else, and its report accounts for the samples
of its attempts.
-/
import LatencyGauge.Proofs.Measure.Calls
import LatencyGauge.Proofs.Measure.Probe

namespace LatencyGauge

variable {W : Type}

/-! ## Warm-ups -/

/-- A call between two readings of the clock. -/
structure TimedCall (W : Type) where
  start : Cycles
  call : Call W
  stop : Cycles

/-- The notes of a call that is timed and forgotten. -/
def TimedCall.notes (x : TimedCall W) : List (Note W) :=
  [.read x.start, .called .forward x.call, .read x.stop]

/-- The timing of an operation in a world, and the world after it. -/
def Rig.clocked (r : Rig W) (op : Operation W) (w : W) : TimedCall W × W :=
  let (start, w) := r.now w
  let (code, v) := op w
  let (stop, v) := r.now v
  (⟨start, ⟨w, code⟩, stop⟩, v)

/-- Timings in a row. -/
inductive Rig.Times (r : Rig W) (op : Operation W) : W → List (TimedCall W) → W → Prop where
  | nil {w : W} : r.Times op w [] w
  | cons {w v u : W} {x : TimedCall W} {l : List (TimedCall W)} (first : r.clocked op w = (x, v))
      (rest : r.Times op v l u) : r.Times op w (x :: l) u

theorem Rig.measure_timed (r : Rig W) (op : Operation W) (w : W) :
    ((r.timed op).measure w).2 = (r.clocked op w).2 := rfl

theorem Rig.measure_timed_recorded (r : Rig W) (op : Operation W) (w : W)
    (record : List (Note W)) :
    ((r.recorded.timed (Operation.recorded op .forward)).measure (w, record)).2 =
      ((r.clocked op w).2, record ++ (r.clocked op w).1.notes) := by
  simp [Rig.timed, Rig.recorded, Operation.recorded, Rig.clocked, TimedCall.notes]

theorem Rig.timed_recorded_seen (r : Rig W) (op : Operation W) :
    (r.recorded.timed (Operation.recorded op .forward)).Seen Prod.fst (r.timed op) :=
  r.recorded_seen.timed fun _ => rfl

/-- A recorded warm-up of an operation leaves the notes of as many timings. -/
theorem Rig.warmUp_timed_recorded (r : Rig W) (op : Operation W) (n : Nat) (w : W)
    (record : List (Note W)) :
    ∃ timings : List (TimedCall W), timings.length = n ∧
      r.Times op w timings ((r.timed op).warmUp n w) ∧
      (r.recorded.timed (Operation.recorded op .forward)).warmUp n (w, record) =
        ((r.timed op).warmUp n w, record ++ timings.flatMap TimedCall.notes) := by
  induction n generalizing w record with
  | zero => exact ⟨[], rfl, .nil, by simp [Probe.warmUp]⟩
  | succ n ih =>
    cases hfirst : r.clocked op w with | mk x v
    obtain ⟨timings, hlen, htimes, hrun⟩ := ih v (record ++ x.notes)
    have hwarm : (r.timed op).warmUp (n + 1) w = (r.timed op).warmUp n v := by
      show (r.timed op).warmUp n ((r.timed op).measure w).2 = _
      rw [r.measure_timed, hfirst]
    refine ⟨x :: timings, by simp [hlen], ?_, ?_⟩
    · rw [hwarm]
      exact .cons hfirst htimes
    · show (r.recorded.timed (Operation.recorded op .forward)).warmUp n
        ((r.recorded.timed (Operation.recorded op .forward)).measure (w, record)).2 = _
      rw [r.measure_timed_recorded, hfirst, hrun, hwarm, List.flatMap_cons, List.append_assoc]

/-! ## Attempts -/

/-- The notes of an attempt at an operation and of what its verdict asks for. -/
def Attempt.trail (plan : LoopPlan) (f : Attempt W) : List (Note W) :=
  f.notes plan .forward ++ plan.recoveryNotes (f.sample.verdict plan)

/-- Attempts in a row, each followed by what its verdict asks for. -/
inductive Rig.Tries (r : Rig W) (plan : LoopPlan) (op : Operation W) (w : W) :
    List (Attempt W) → W → Prop where
  | nil : r.Tries plan op w [] w
  | snoc {l : List (Attempt W)} {f : Attempt W} {v u : W} (before : r.Tries plan op w l v)
      (last : r.tried plan op v = (f, u)) :
      r.Tries plan op w (l ++ [f]) (r.recover plan (f.sample.verdict plan) u)

/-- A step of a recorded loop with an operation makes one attempt. -/
theorem Rig.step_timed_recorded (r : Rig W) (plan : LoopPlan) (op : Operation W) (t : Tally) (w : W)
    (record : List (Note W)) {f : Attempt W} {v : W} (h : r.tried plan op w = (f, v)) :
    r.recorded.step plan (r.recorded.timed (Operation.recorded op .forward)) (t, (w, record)) =
      (t.take (f.sample.verdict plan),
        (r.recover plan (f.sample.verdict plan) v, record ++ f.trail plan)) := by
  have hattempt := r.attempt_recorded plan op .forward w record
  rw [h] at hattempt
  simp only [Rig.step, hattempt, r.recover_recorded, Attempt.trail, List.append_assoc]

/-- A recorded loop with an operation that has made the attempts `tries`: they were made one after
the other, and they are counted and written down. -/
structure LoopPlan.Tried (plan : LoopPlan) (r : Rig W) (op : Operation W) (w : W)
    (before : List (Note W)) (s : Tally × (W × List (Note W))) (tries : List (Attempt W)) :
    Prop where
  tally : s.1 = Tally.of plan.baseline ((tries.map Attempt.sample).map (Sample.verdict · plan))
  record : s.2.2 = before ++ tries.flatMap (Attempt.trail plan)
  made : r.Tries plan op w tries s.2.1

theorem LoopPlan.tried_nil (plan : LoopPlan) (r : Rig W) (op : Operation W) (w : W)
    (before : List (Note W)) :
    plan.Tried r op w before (.start plan.baseline, (w, before)) [] where
  tally := (Tally.of_nil _).symm
  record := by simp
  made := .nil

theorem LoopPlan.Tried.step {plan : LoopPlan} {r : Rig W} {op : Operation W} {w : W}
    {before : List (Note W)} {s : Tally × (W × List (Note W))} {tries : List (Attempt W)}
    (h : plan.Tried r op w before s tries) :
    ∃ f, plan.Tried r op w before
      (r.recorded.step plan (r.recorded.timed (Operation.recorded op .forward)) s)
      (tries ++ [f]) := by
  obtain ⟨t, v, record⟩ := s
  cases htried : r.tried plan op v with | mk f u
  refine ⟨f, ?_⟩
  rw [r.step_timed_recorded plan op t v record htried]
  constructor
  case tally =>
    have htally : t = _ := h.tally
    simp only [List.map_append, List.map_singleton, Tally.of_append, ← htally]
  case record =>
    have hrecord : record = _ := h.record
    simp [hrecord]
  case made => exact .snoc h.made htried

/-! ## Runs -/

/-- A run with an operation from one world to another: the timings of its warm-up, the attempts it
made after them, and the tally of these. -/
structure Rig.Runs (r : Rig W) (plan : LoopPlan) (op : Operation W) (w : W)
    (timings : List (TimedCall W)) (tries : List (Attempt W)) (t : Tally) (w' : W) : Prop where
  length : timings.length = plan.warmup.toNat
  warmed : r.Times op w timings ((r.timed op).warmUp plan.warmup.toNat w)
  made : r.Tries plan op ((r.timed op).warmUp plan.warmup.toNat w) tries w'
  tally : t = Tally.of plan.baseline ((tries.map Attempt.sample).map (Sample.verdict · plan))

/-- The report on a run accounts for the samples of its attempts. -/
theorem Rig.Runs.report_accounts {r : Rig W} {plan : LoopPlan} {op : Operation W} {w w' : W}
    {timings : List (TimedCall W)} {tries : List (Attempt W)} {t : Tally}
    (h : r.Runs plan op w timings tries t w') (hfew : tries.length < attemptBound) (name : String)
    (iterations : Nat) :
    (t.report name plan iterations).Accounts plan plan.baseline (tries.map Attempt.sample) := by
  rw [h.tally]
  exact Tally.report_accounts plan plan.baseline name _ (by rwa [List.length_map])

/-- A recorded loop with an operation writes down the timings of its warm-up and its attempts, and
nothing else. -/
theorem Rig.loop_recorded {r : Rig W} {plan : LoopPlan} {op : Operation W} {fuel : Nat} {w w' : W}
    {t : Tally} {record : List (Note W)}
    (h : r.recorded.loop plan (r.recorded.timed (Operation.recorded op .forward)) fuel
      ((r.recorded.timed (Operation.recorded op .forward)).warmUp plan.warmup.toNat (w, [])) =
        some (t, (w', record))) :
    ∃ (timings : List (TimedCall W)) (tries : List (Attempt W)),
      record = timings.flatMap TimedCall.notes ++ tries.flatMap (Attempt.trail plan) ∧
      tries.length ≤ fuel ∧ r.Runs plan op w timings tries t w' := by
  obtain ⟨timings, hlen, htimes, hwarm⟩ := r.warmUp_timed_recorded op plan.warmup.toNat w []
  rw [hwarm, List.nil_append] at h
  obtain ⟨tries, hlength, hend, -⟩ := iterate_trail
    (fun s l _ (hl : plan.Tried r op _ (timings.flatMap TimedCall.notes) s l) => hl.step)
    (plan.tried_nil r op _ _) h
  rw [List.nil_append] at hend
  exact ⟨timings, tries, hend.record, hlength, hlen, htimes, hend.made, hend.tally⟩

/-- A loop with an operation can be written down. -/
theorem Rig.exists_record_of_loop {r : Rig W} {plan : LoopPlan} {op : Operation W} {fuel : Nat}
    {w w' : W} {t : Tally}
    (h : r.loop plan (r.timed op) fuel ((r.timed op).warmUp plan.warmup.toNat w) = some (t, w')) :
    ∃ record, r.recorded.loop plan (r.recorded.timed (Operation.recorded op .forward)) fuel
      ((r.recorded.timed (Operation.recorded op .forward)).warmUp plan.warmup.toNat (w, [])) =
        some (t, (w', record)) := by
  have hview := r.recorded_seen.loop plan (r.timed_recorded_seen op) fuel
    ((r.recorded.timed (Operation.recorded op .forward)).warmUp plan.warmup.toNat (w, []))
  rw [← (r.timed_recorded_seen op).warmUp, h, Option.map_eq_some_iff] at hview
  obtain ⟨⟨t', w'', record⟩, hrecorded, heq⟩ := hview
  cases heq
  exact ⟨record, hrecorded⟩

/-! ## Calls -/

theorem callsIn_called (calls : List (Half × Call W)) :
    callsIn (calls.map fun x => (.called x.1 x.2 : Note W)) = calls := by
  rw [callsIn, List.filterMap_map]
  exact List.filterMap_some

theorem callsIn_timings (timings : List (TimedCall W)) :
    callsIn (timings.flatMap TimedCall.notes) = timings.map fun x => (.forward, x.call) := by
  rw [callsIn_flatMap, List.map_eq_flatMap]
  rfl

theorem Attempt.callsIn_trail (plan : LoopPlan) (f : Attempt W) :
    callsIn (f.trail plan) = [(.forward, f.call)] := by
  rw [Attempt.trail, callsIn_append, f.callsIn_notes, callsIn_recoveryNotes, List.append_nil]

theorem callsIn_tries (plan : LoopPlan) (tries : List (Attempt W)) :
    callsIn (tries.flatMap (Attempt.trail plan)) = tries.map fun f => (.forward, f.call) := by
  rw [callsIn_flatMap, List.map_eq_flatMap]
  simp only [Attempt.callsIn_trail]

/-- The calls of a run with an operation are those of its timings and then those of its attempts. -/
theorem callsIn_trial (plan : LoopPlan) (timings : List (TimedCall W)) (tries : List (Attempt W)) :
    callsIn (timings.flatMap TimedCall.notes ++ tries.flatMap (Attempt.trail plan)) =
      timings.map (fun x => (.forward, x.call)) ++ tries.map fun f => (.forward, f.call) := by
  rw [callsIn_append, callsIn_timings, callsIn_tries]

/-- The calls that a run makes are those in its record. -/
theorem Rig.callsMade_of_loop {r : Rig W} {plan : LoopPlan} {op : Operation W} {fuel : Nat}
    {w w' : W} {t : Tally} {record : List (Note W)}
    (h : r.recorded.loop plan (r.recorded.timed (Operation.recorded op .forward)) fuel
      ((r.recorded.timed (Operation.recorded op .forward)).warmUp plan.warmup.toNat (w, [])) =
        some (t, (w', record))) :
    r.callsMade plan op fuel w = callsIn record := by
  unfold Rig.loop at h
  simp only [Rig.callsMade, iterateUpTo_of_iterate h]

end LatencyGauge
