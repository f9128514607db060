/-
Background load while others change the world. An interferer does bout after bout: a look at the
flag, one round, an edge of the tick, one delay. Its rounds are counted whatever they return, only a
look at the flag ends it, and at most one round is begun after the flag was set.
-/
import LatencyGauge.Proofs.Sync.Scenes

namespace LatencyGauge

variable {W : Type}

/-! ## Steps of an interferer -/

/-- What a step of an interferer does. -/
inductive Interferer.Goes (i : Interferer W) (midway : Bool) :
    Interfering → List Chore → Interfering → Prop where
  | looks (isSet : Bool) :
      Goes i midway .asking [.looked isSet] (if isSet then .ended else .working)
  | works : Goes i midway .working (stepChores midway none) .working
  | returns (code : Code) :
      Goes i midway .working (stepChores midway (some code)) (.edge .starting)
  | waits {x y : EdgeWait} {more : List Chore} (h : x.Goes more y) :
      Goes i midway (.edge x) more (i.afterEdge y)
  | pauses : Goes i midway .pausing [.waited i.quiescence] .asking

/-- A step of an interferer does some chores, and counts the rounds that they end. -/
structure Interferer.Steps (i : Interferer W) (e : Surroundings W) (a : Load × Scene W)
    (more : List Chore) (b : Load × Scene W) : Prop where
  goes : i.Goes a.2.midway a.1.next more b.1.next
  leads : a.2.Leads e more b.2
  rounds : b.1.rounds = a.1.rounds + more.countP Chore.isReturn
  failures : b.1.failures = a.1.failures + more.countP Chore.isFailure

/-! ## Bouts -/

/-- A call of the round. -/
def callChores (steps : Nat) (code : Code) : List Chore :=
  .began :: (List.replicate steps .worked ++ [.returned code])

/-- A round, and a wait that found an edge. -/
structure Bout where
  steps : Nat
  code : Code
  edge : Tick
  wait : List Chore
  found : EdgeWait.Shows (.ended (some edge)) wait

/-- A bout from a look at the flag to the next: one call of the round, the wait, and one delay
unless there is none to be made. -/
def Bout.chores (quiescence : Cycles) (b : Bout) : List Chore :=
  .looked false :: (callChores b.steps b.code ++ b.wait ++
    if quiescence = 0 then [] else [.waited quiescence])

def Interferer.past (i : Interferer W) (bouts : List Bout) : List Chore :=
  bouts.flatMap (Bout.chores i.quiescence)

/-- What an interferer has done where it stands: bouts, and what it did since the last one. It ends
with a look that saw the flag, before a round or while it waits for the edge after one; with what
code a round returned makes no difference. -/
inductive Interferer.Stands (i : Interferer W) : Interfering → List Chore → Prop where
  | asking (bouts : List Bout) : Stands i .asking (i.past bouts)
  | called (bouts : List Bout) : Stands i .working (i.past bouts ++ [.looked false])
  | working (bouts : List Bout) (steps : Nat) :
      Stands i .working
        (i.past bouts ++ .looked false :: .began :: List.replicate steps .worked ++ [.worked])
  | waiting (bouts : List Bout) (steps : Nat) (code : Code) {x : EdgeWait} {wait : List Chore}
      (h : x.Shows wait) (hover : x.over = false) :
      Stands i (.edge x) (i.past bouts ++ .looked false :: (callChores steps code ++ wait))
  | pausing (bouts : List Bout) (steps : Nat) (code : Code) {t : Tick} {wait : List Chore}
      (h : EdgeWait.Shows (.ended (some t)) wait) (hquiet : i.quiescence ≠ 0) :
      Stands i .pausing (i.past bouts ++ .looked false :: (callChores steps code ++ wait))
  | done (bouts : List Bout) : Stands i .ended (i.past bouts ++ [.looked true])
  | gaveUp (bouts : List Bout) (steps : Nat) (code : Code) {wait : List Chore}
      (h : EdgeWait.Shows (.ended none) wait) :
      Stands i .ended (i.past bouts ++ .looked false :: (callChores steps code ++ wait))

section Bouts

variable {i : Interferer W} {e : Surroundings W} {a b : Load × Scene W} {more : List Chore}
  {chores : List Chore}

theorem Interferer.stands_asking (bouts : List Bout) (b : Bout) :
    i.Stands .asking (i.past bouts ++ b.chores i.quiescence) := by
  have hpast : i.past (bouts ++ [b]) = i.past bouts ++ b.chores i.quiescence := by
    simp [Interferer.past]
  rw [← hpast]
  exact .asking _

/-- After a wait that found an edge without a delay to be made the bout is complete. -/
theorem Interferer.stands_afterEdge (bouts : List Bout) (steps : Nat) (code : Code) {x : EdgeWait}
    {wait : List Chore} (h : x.Shows wait) :
    i.Stands (i.afterEdge x)
      (i.past bouts ++ .looked false :: (callChores steps code ++ wait)) := by
  cases x with
  | starting | observing | asking => exact .waiting bouts steps code h rfl
  | ended edge =>
    cases edge with
    | none => exact .gaveUp bouts steps code h
    | some t =>
      by_cases hq : i.quiescence = 0
      · simpa [Interferer.afterEdge, Bout.chores, hq] using
          i.stands_asking bouts ⟨steps, code, t, wait, h⟩
      · simpa [Interferer.afterEdge, hq] using Stands.pausing bouts steps code h hq

theorem stepChores_countP_none (midway : Bool) :
    (stepChores midway none).countP Chore.isReturn = 0 ∧
      (stepChores midway none).countP Chore.isFailure = 0 := by
  cases midway <;> exact ⟨rfl, rfl⟩

theorem stepChores_countP_some (midway : Bool) (code : Code) :
    (stepChores midway (some code)).countP Chore.isReturn = 1 ∧
      (stepChores midway (some code)).countP Chore.isFailure = if code = 0 then 0 else 1 := by
  cases midway <;> by_cases hcode : code = 0 <;>
    simp [stepChores, Chore.isReturn, Chore.isFailure, hcode]

/-- A wait looks and observes, and does nothing else. -/
theorem EdgeWait.Goes.countP {x y : EdgeWait} (h : x.Goes more y) :
    more.countP Chore.isReturn = 0 ∧ more.countP Chore.isFailure = 0 := by
  cases h <;> exact ⟨rfl, rfl⟩

theorem Interferer.Stands.open_edge {x : EdgeWait} (h : i.Stands (.edge x) chores) :
    x.over = false := by
  cases h with
  | waiting _ _ _ _ hover => exact hover

theorem Interferer.Heeds.step (h : i.Heeds e) (ha : i.Stands a.1.next a.2.chores)
    (hgo : a.1.next ≠ .ended) : ∃ more, i.Steps e a more ((i.among e).step a) := by
  obtain ⟨⟨next, rounds, failures⟩, s⟩ := a
  cases next with
  | asking => exact ⟨_, .looks _, h.act_done s, rfl, rfl⟩
  | working =>
    have hleads := h.act_round s
    simp only [Interferer.step]
    rcases hround : (i.among e).round s with ⟨_ | code, u⟩ <;> rw [hround] at hleads
    · obtain ⟨hreturn, hfailure⟩ := stepChores_countP_none s.midway
      exact ⟨_, .works, hleads, by rw [hreturn]; rfl, by rw [hfailure]; rfl⟩
    · obtain ⟨hreturn, hfailure⟩ := stepChores_countP_some s.midway code
      exact ⟨_, .returns code, hleads, by rw [hreturn]; rfl, by rw [hfailure]; rfl⟩
  | edge x =>
    obtain ⟨more, hgoes, hleads⟩ := h.step_wait ha.open_edge s
    obtain ⟨hreturn, hfailure⟩ := hgoes.countP
    exact ⟨more, .waits hgoes, hleads, by rw [hreturn]; rfl, by rw [hfailure]; rfl⟩
  | pausing => exact ⟨_, .pauses, h.act_wait _ s, rfl, rfl⟩
  | ended => exact absurd rfl hgo

/-- A step goes on from where the interferer stands. -/
theorem Interferer.Stands.goes {x y : Interfering} (h : i.Stands x chores)
    (hgoes : i.Goes (chores.getLast? == some .worked) x more y) : i.Stands y (chores ++ more) := by
  cases h with
  | asking bouts =>
    cases hgoes with
    | looks isSet =>
      cases isSet with
      | false => exact .called bouts
      | true => exact .done bouts
  | called bouts =>
    cases hgoes with
    | works => simpa [stepChores] using Stands.working bouts 0
    | returns code => simpa [stepChores, callChores] using Stands.waiting bouts 0 code .starting rfl
  | working bouts steps =>
    -- the last chore tells that the round is under way, so it is not begun again
    rw [List.getLast?_concat, beq_self_eq_true] at hgoes
    cases hgoes with
    | works => simpa [stepChores, List.replicate_succ'] using Stands.working bouts (steps + 1)
    | returns code =>
      simpa [stepChores, callChores, List.replicate_succ'] using
        Stands.waiting bouts (steps + 1) code .starting rfl
  | waiting bouts steps code hshows _ =>
    cases hgoes with
    | waits hwait => simpa using i.stands_afterEdge bouts steps code (hshows.goes hwait)
  | pausing bouts steps code hshows hq =>
    cases hgoes with
    | pauses => simpa [Bout.chores, hq] using i.stands_asking bouts ⟨steps, code, _, _, hshows⟩
  | done | gaveUp => cases hgoes

end Bouts

/-! ## Rounds that are begun late -/

/-- As long as the flag is not set nothing is late, and before a round begins it was not set. So of
all rounds at most one is begun late. -/
structure Interferer.Timely (e : Surroundings W) (p : Load × Scene W) : Prop where
  early : e.isSet p.2.world = false → ∀ n ∈ p.2.notes, n.late = false
  fresh : p.1.next = .working → p.2.midway = false → ∀ n ∈ p.2.notes, n.late = false
  once : p.2.notes.countP Remark.lateStart ≤ 1
  seen : .looked true ∈ p.2.chores → e.isSet p.2.world = true

section Late

variable {i : Interferer W} {e : Surroundings W} {s t : Scene W} {a b : Load × Scene W}
  {more : List Chore}

theorem Scene.Leads.early (h : s.Leads e more t) (hs : s.late e = false)
    (hearly : e.isSet s.world = false → ∀ n ∈ s.notes, n.late = false) :
    ∀ n ∈ t.notes, n.late = false := by
  have hset : e.isSet s.world = false :=
    Bool.eq_false_iff.2 fun hset => by simp [h.since hset] at hs
  intro n hn
  rw [h.notes, List.mem_append, List.mem_map] at hn
  rcases hn with hn | ⟨c, -, rfl⟩
  · exact hearly hset n hn
  · exact hs

theorem countP_lateStart_le (late : Bool) (chores : List Chore) :
    (chores.map (⟨·, late⟩)).countP Remark.lateStart ≤ chores.count .began := by
  rw [List.countP_map]
  refine List.countP_mono_left fun c _ hlate => ?_
  simp only [Function.comp_apply, Remark.lateStart, Bool.and_eq_true] at hlate
  exact hlate.1

/-- A round begins with a step that no other step of it went before. -/
theorem Interferer.Goes.begins {midway : Bool} {x y : Interfering} (h : i.Goes midway x more y)
    (hbegan : .began ∈ more) : x = .working ∧ midway = false ∧ more.count .began = 1 := by
  cases h with
  | looks | pauses => simp at hbegan
  | works | returns => cases midway <;> simp_all [stepChores]
  | waits hwait => cases hwait <;> simp at hbegan

/-- An interferer gets to a round by a look at the flag, and stays there by working. -/
theorem Interferer.Goes.into_working {midway : Bool} {x : Interfering}
    (h : i.Goes midway x more .working) :
    more = [.looked false] ∨ ∃ before, more = before ++ [.worked] := by
  generalize hy : Interfering.working = y at h
  cases h with
  | looks isSet =>
    cases isSet with
    | false => exact .inl rfl
    | true => cases hy
  | works => exact .inr ⟨_, rfl⟩
  | returns | pauses => cases hy
  | @waits _ y _ hwait =>
    cases hwait with
    | edge =>
      simp only [Interferer.afterEdge] at hy
      split at hy <;> cases hy
    | starts | same | unset | isSet => cases hy

theorem Interferer.timely_fresh (e : Surroundings W) (w : W) :
    Interferer.Timely e (.fresh, .opened w) where
  early := by simp [Scene.opened]
  fresh := by rintro ⟨⟩
  once := Nat.zero_le 1
  seen := by simp [Scene.opened, Scene.chores]

theorem Interferer.Timely.step (ha : Interferer.Timely e a) (h : i.Steps e a more b) :
    Interferer.Timely e b where
  early hset := by
    refine h.leads.early ?_ ha.early
    exact Bool.eq_false_iff.2 fun hlate => by simp [h.leads.lasts hlate] at hset
  fresh hnext hmid := by
    have hgoes := h.goes
    rw [hnext] at hgoes
    rcases hgoes.into_working with hlooked | ⟨before, hworked⟩
    · exact h.leads.early (h.leads.looks false (by simp [hlooked])).symm ha.early
    · simp [Scene.midway, h.leads.chores_eq, hworked] at hmid
  once := by
    rw [h.leads.notes, List.countP_append]
    have hmore := countP_lateStart_le (a.2.late e) more
    by_cases hbegan : .began ∈ more
    · -- the look that led here did not see the flag, so nothing noted before is late
      obtain ⟨hnext, hmid, hcount⟩ := h.goes.begins hbegan
      have hbefore : a.2.notes.countP Remark.lateStart = 0 := by
        rw [List.countP_eq_zero]
        intro n hn
        simp [Remark.lateStart, ha.fresh hnext hmid n hn]
      omega
    · have hnone : more.count .began = 0 := List.count_eq_zero.2 hbegan
      have honce := ha.once
      omega
  seen hlooked := by
    rw [h.leads.chores_eq, List.mem_append] at hlooked
    rcases hlooked with hbefore | hmore
    · exact h.leads.lasts (h.leads.since (ha.seen hbefore))
    · exact h.leads.lasts (h.leads.looks true hmore).symm

end Late

/-! ## Whole runs -/

/-- As many rounds began as returned. -/
def Balanced (chores : List Chore) : Prop := chores.count .began = chores.countP Chore.isReturn

theorem Balanced.append {l l' : List Chore} (h : Balanced l) (h' : Balanced l') :
    Balanced (l ++ l') := by
  unfold Balanced at h h' ⊢
  rw [List.count_append, List.countP_append, h, h']

theorem balanced_callChores (steps : Nat) (code : Code) : Balanced (callChores steps code) := by
  simp [Balanced, callChores, List.count_replicate, List.countP_replicate, Chore.isReturn]

theorem balanced_pollChores (first : Tick) (polls : Nat) : Balanced (pollChores first polls) := by
  induction polls with
  | zero => rfl
  | succ polls ih => exact ih.append rfl

theorem EdgeWait.Shows.balanced {x : EdgeWait} {wait : List Chore} (h : x.Shows wait) :
    Balanced wait := by
  cases h with
  | starting => rfl
  | observing first polls => exact balanced_pollChores first polls
  | asking first polls | edge first polls | done first polls =>
    exact (balanced_pollChores first polls).append rfl

theorem balanced_round {steps : Nat} {code : Code} {wait : List Chore} (h : Balanced wait) :
    Balanced (.looked false :: (callChores steps code ++ wait)) :=
  Balanced.append (l := [.looked false]) rfl ((balanced_callChores steps code).append h)

theorem Bout.balanced (quiescence : Cycles) (b : Bout) : Balanced (b.chores quiescence) := by
  rw [Bout.chores, List.append_assoc]
  refine balanced_round (b.found.balanced.append ?_)
  split <;> rfl

section Runs

variable {i : Interferer W} {e : Surroundings W} {a b : Load × Scene W} {more chores : List Chore}

theorem Interferer.balanced_past (bouts : List Bout) : Balanced (i.past bouts) := by
  induction bouts with
  | nil => rfl
  | cons b bouts ih => exact (b.balanced _).append ih

/-- A run ends with a look at a flag that is set, and all its rounds have returned. -/
theorem Interferer.Stands.ended (h : i.Stands .ended chores) :
    Balanced chores ∧ chores.getLast? = some (.looked true) := by
  cases h with
  | done bouts => exact ⟨(i.balanced_past bouts).append rfl, by simp⟩
  | gaveUp bouts steps code h =>
    refine ⟨(i.balanced_past bouts).append (balanced_round h.balanced), ?_⟩
    cases h with
    | done first polls =>
      simp only [← List.append_assoc, ← List.cons_append, List.getLast?_append]
      rfl

/-- The flag was set before any round began. -/
structure Interferer.Forestalled (e : Surroundings W) (p : Load × Scene W) : Prop where
  next : p.1.next = .asking ∨ p.1.next = .ended
  set : e.isSet p.2.world = true
  rounds : p.1.rounds = 0

theorem Interferer.Forestalled.step (ha : Interferer.Forestalled e a) (h : i.Steps e a more b)
    (hgo : a.1.next ≠ .ended) : Interferer.Forestalled e b := by
  have hlate : a.2.late e = true := h.leads.since ha.set
  have hasking : a.1.next = .asking := ha.next.resolve_right hgo
  have hgoes := h.goes
  rw [hasking] at hgoes
  generalize hnext : b.1.next = next at hgoes
  cases hgoes with
  | looks isSet =>
    have hset : isSet = true := (h.leads.looks isSet (List.mem_singleton_self _)).trans hlate
    refine ⟨.inr ?_, h.leads.lasts hlate, ?_⟩
    · rw [hnext, hset]
      rfl
    · rw [h.rounds, ha.rounds]
      rfl

/-- What every step of a run from a world keeps. -/
structure Interferer.Kept (i : Interferer W) (e : Surroundings W) (w : W) (p : Load × Scene W) :
    Prop where
  stands : i.Stands p.1.next p.2.chores
  rounds : p.1.rounds = p.2.chores.countP Chore.isReturn
  failures : p.1.failures = p.2.chores.countP Chore.isFailure
  timely : Interferer.Timely e p
  forestalled : e.isSet w = true → Interferer.Forestalled e p

theorem Interferer.kept_fresh (i : Interferer W) (e : Surroundings W) (w : W) :
    i.Kept e w (.fresh, .opened w) where
  stands := .asking []
  rounds := rfl
  failures := rfl
  timely := Interferer.timely_fresh e w
  forestalled hset := ⟨.inl rfl, hset, rfl⟩

theorem Interferer.Kept.step {w : W} (ha : i.Kept e w a) (h : i.Steps e a more b)
    (hgo : a.1.next ≠ .ended) : i.Kept e w b where
  stands := by
    rw [h.leads.chores_eq]
    exact ha.stands.goes h.goes
  rounds := by rw [h.leads.chores_eq, List.countP_append, h.rounds, ha.rounds]
  failures := by rw [h.leads.chores_eq, List.countP_append, h.failures, ha.failures]
  timely := ha.timely.step h
  forestalled hset := (ha.forestalled hset).step h hgo

/-- Whatever others do to the world between the steps of an interferer, as long as they leave a flag
that is set: in a run that ends every call of the round is counted, and those that failed; the calls
are apart by an edge of the tick and one delay, and none of them ends the run, which only a look at
the flag does; at most one begins after the flag was set, and none if it was set before. A wait ends
with a tick other than the first one, even if the flag is set by then, and without one only if the
flag is set. -/
theorem Interferer.among_runs (h : i.Heeds e) :
    (∀ (fuel : Nat) (w : W) (l : Load) (s : Scene W),
      (i.among e).run fuel (.opened w) = some (l, s) →
      l.rounds = s.chores.count .began ∧ l.rounds = s.chores.countP Chore.isReturn ∧
      l.failures = s.chores.countP Chore.isFailure ∧
      i.Stands .ended s.chores ∧ s.chores.getLast? = some (.looked true) ∧
      s.notes.countP Remark.lateStart ≤ 1 ∧ (e.isSet w = true → l.rounds = 0)) ∧
    ∀ (fuel : Nat) (s t : Scene W) (edge : Option Tick),
      awaitEdgeOr (i.among e).observe (i.among e).done fuel s = some (edge, t) →
      ∃ wait, t.chores = s.chores ++ wait ∧ EdgeWait.Shows (.ended edge) wait ∧
        (edge = none → e.isSet t.world = true) := by
  refine ⟨fun fuel w l s hrun => ?_, fun fuel s t edge hwait => ?_⟩
  · have hended : l.next = .ended := by simpa using stop_of_iterate hrun
    have hkept : i.Kept e w (l, s) := by
      refine iterate_invariant (P := i.Kept e w) (fun a hgo ha => ?_) (i.kept_fresh e w) hrun
      have hnext : a.1.next ≠ .ended := by simpa using hgo
      obtain ⟨more, hsteps⟩ := h.step ha.stands hnext
      exact ha.step hsteps hnext
    have hstands := hkept.stands
    rw [hended] at hstands
    obtain ⟨hbalanced, hlast⟩ := hstands.ended
    exact ⟨hkept.rounds.trans hbalanced.symm, hkept.rounds, hkept.failures, hstands, hlast,
      hkept.timely.once, fun hset => (hkept.forestalled hset).rounds⟩
  · obtain ⟨wait, hchores, hshows, hset⟩ := h.await hwait
    exact ⟨wait, hchores, hshows, fun hnone => hset (congrArg EdgeWait.ended hnone)⟩

end Runs

/-- A world of a tick and a flag, in which rounds fail until the tick has moved. -/
def steady : Interferer (Tick × Bool) where
  observe w := (w.1, w)
  done w := (w.2, w)
  wait _ w := w
  round w := (some (if w.1 = 0 then 5 else 0), w)
  quiescence := 3

/-- The tick moves during the first wait, and the flag is set between a look at it and the second
round. -/
def restless : Surroundings (Tick × Bool) where
  isSet := Prod.snd
  outside k w := if k = 4 then (w.1 + 1, w.2) else if k = 8 then (w.1, true) else w

theorem steady_heeds_restless : steady.Heeds restless where
  looks _ := rfl
  outside k w hset := by
    simp only [restless] at hset ⊢
    split
    · exact hset
    · split
      · rfl
      · exact hset
  done _ hset := hset
  observe _ hset := hset
  round _ hset := hset
  wait _ _ hset := hset

theorem steady_among_restless :
    ∃ l s, (steady.among restless).run 20 (.opened (0, false)) = some (l, s) ∧
      l = ⟨.ended, 2, 1⟩ ∧ s.notes.countP Remark.lateStart = 1 ∧
      l.rounds = s.chores.count .began ∧ l.failures = s.chores.countP Chore.isFailure ∧
      steady.Stands .ended s.chores ∧ s.chores.getLast? = some (.looked true) := by
  obtain ⟨hrounds, -, hfailures, hstands, hlast, -⟩ :=
    (Interferer.among_runs steady_heeds_restless).1 20 (0, false) _ _ rfl
  exact ⟨_, _, rfl, rfl, rfl, hrounds, hfailures, hstands, hlast⟩

end LatencyGauge
