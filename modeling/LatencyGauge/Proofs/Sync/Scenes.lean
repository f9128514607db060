/-
A world that does not hold still. Before each act in it others may change it as they like, so the
tick may move and the completion flag may be set at any moment; it is only relied upon that a flag
that is set stays set. What an interferer does there is noted, and with it whether the flag was set
by then. A wait for an edge polls the tick, and looks at the flag only after a poll without an edge.
-/
import LatencyGauge.Proofs.Iteration
import LatencyGauge.Sync.Interference

namespace LatencyGauge

variable {W A : Type}

/-! ## Notes -/

/-- What an interferer does. A step of a round ends it with a code or not. -/
inductive Chore where
  | looked (isSet : Bool)
  | began
  | worked
  | returned (code : Code)
  | observed (t : Tick)
  | waited (c : Cycles)
deriving DecidableEq, Repr

/-- What was done, and whether the flag was set before it. -/
structure Remark where
  chore : Chore
  late : Bool
deriving DecidableEq, Repr

/-- A round was begun after the flag was set. -/
def Remark.lateStart (n : Remark) : Bool := n.chore == .began && n.late

def Chore.isReturn : Chore → Bool
  | .returned _ => true
  | _ => false

def Chore.isFailure : Chore → Bool
  | .returned code => code != 0
  | _ => false

/-! ## A world among others -/

/-- Whether the flag is set in a world, and what others do to the world before each act in it. -/
structure Surroundings (W : Type) where
  isSet : W → Bool
  outside : Nat → W → W

/-- A world, how often it was acted in, and what was noted. -/
structure Scene (W : Type) where
  world : W
  acts : Nat
  notes : List Remark

def Scene.opened (w : W) : Scene W := ⟨w, 0, []⟩

def Scene.chores (s : Scene W) : List Chore := s.notes.map Remark.chore

/-- Whether the flag is set once the others have done what they do before the next act. -/
def Scene.late (s : Scene W) (e : Surroundings W) : Bool := e.isSet (e.outside s.acts s.world)

/-- Whether a round is under way. -/
def Scene.midway (s : Scene W) : Bool := s.chores.getLast? == some .worked

/-- An act in the world, after what the others do. -/
def Scene.act (s : Scene W) (e : Surroundings W) (op : W → A × W) (chores : A → List Chore) :
    A × Scene W :=
  let (a, w) := op (e.outside s.acts s.world)
  (a, ⟨w, s.acts + 1, s.notes ++ (chores a).map (⟨·, s.late e⟩)⟩)

/-- What is noted of a step of a round. The first one begins the round. -/
def stepChores (midway : Bool) (code : Option Code) : List Chore :=
  (if midway then [] else [.began]) ++ [code.elim .worked .returned]

/-- An interferer among others, with notes of what it does. -/
def Interferer.among (i : Interferer W) (e : Surroundings W) : Interferer (Scene W) where
  observe s := s.act e i.observe fun t => [.observed t]
  done s := s.act e i.done fun isSet => [.looked isSet]
  wait c s := (s.act e (fun w => ((), i.wait c w)) fun _ => [.waited c]).2
  round s := s.act e i.round (stepChores s.midway)
  quiescence := i.quiescence

/-- Where the others do nothing the notes are all that is added to a run. -/
theorem Interferer.run_among_still (i : Interferer W) (isSet : W → Bool) (fuel : Nat) (w : W) :
    ((i.among ⟨isSet, fun _ w => w⟩).run fuel (.opened w)).map (Prod.map id Scene.world) =
      i.run fuel w := by
  refine iterate_view (Prod.map id Scene.world) (fun s : Load × W => s.1.next == .ended) ?_ fuel
    (.fresh, .opened w)
  rintro ⟨⟨next, rounds, failures⟩, s⟩
  cases next with
  | asking | pausing | ended => rfl
  | edge x => cases x <;> rfl
  | working =>
    simp only [Interferer.step, Interferer.among, Scene.act, Prod.map, id]
    rcases hround : i.round s.world with ⟨_ | code, w⟩ <;> simp [hround]

/-- The interferer looks at the flag, and neither it nor the others take the flag back. -/
structure Interferer.Heeds (i : Interferer W) (e : Surroundings W) : Prop where
  looks : ∀ w, (i.done w).1 = e.isSet w
  outside : ∀ k w, e.isSet w = true → e.isSet (e.outside k w) = true
  done : ∀ w, e.isSet w = true → e.isSet (i.done w).2 = true
  observe : ∀ w, e.isSet w = true → e.isSet (i.observe w).2 = true
  round : ∀ w, e.isSet w = true → e.isSet (i.round w).2 = true
  wait : ∀ c w, e.isSet w = true → e.isSet (i.wait c w) = true

/-- An act leads from one scene to another with notes of what was done: the flag stays set, and a
look at it shows it. -/
structure Scene.Leads (e : Surroundings W) (s : Scene W) (more : List Chore) (t : Scene W) :
    Prop where
  notes : t.notes = s.notes ++ more.map (⟨·, s.late e⟩)
  since : e.isSet s.world = true → s.late e = true
  lasts : s.late e = true → e.isSet t.world = true
  looks : ∀ isSet, .looked isSet ∈ more → isSet = s.late e

section Acts

variable {e : Surroundings W} {i : Interferer W} {s t : Scene W} {more : List Chore}

theorem Scene.Leads.chores_eq (h : s.Leads e more t) : t.chores = s.chores ++ more := by
  simp [Scene.chores, h.notes, Function.comp_def]

theorem Interferer.Heeds.act (h : i.Heeds e) (op : W → A × W) (chores : A → List Chore)
    (hop : ∀ w, e.isSet w = true → e.isSet (op w).2 = true)
    (hlooks : ∀ w isSet, .looked isSet ∈ chores (op w).1 → isSet = e.isSet w) (s : Scene W) :
    s.Leads e (chores (s.act e op chores).1) (s.act e op chores).2 where
  notes := rfl
  since := h.outside s.acts s.world
  lasts := hop _
  looks := hlooks _

theorem Interferer.Heeds.act_observe (h : i.Heeds e) (s : Scene W) :
    s.Leads e [.observed ((i.among e).observe s).1] ((i.among e).observe s).2 :=
  h.act i.observe (fun t => [.observed t]) h.observe (by simp) s

theorem Interferer.Heeds.act_done (h : i.Heeds e) (s : Scene W) :
    s.Leads e [.looked ((i.among e).done s).1] ((i.among e).done s).2 := by
  refine h.act i.done (fun isSet => [.looked isSet]) h.done ?_ s
  intro w isSet hlooked
  cases List.mem_singleton.1 hlooked
  exact h.looks w

theorem Interferer.Heeds.act_round (h : i.Heeds e) (s : Scene W) :
    s.Leads e (stepChores s.midway ((i.among e).round s).1) ((i.among e).round s).2 := by
  refine h.act i.round (stepChores s.midway) h.round ?_ s
  intro w isSet hlooked
  rcases hcode : (i.round w).1 with _ | code <;> cases hmid : s.midway <;>
    simp [stepChores, hcode, hmid] at hlooked

theorem Interferer.Heeds.act_wait (h : i.Heeds e) (c : Cycles) (s : Scene W) :
    s.Leads e [.waited c] ((i.among e).wait c s) :=
  h.act (fun w => ((), i.wait c w)) (fun _ => [.waited c]) (h.wait c) (by simp) s

end Acts

/-! ## Waits for an edge -/

/-- What a step of a wait does. -/
inductive EdgeWait.Goes : EdgeWait → List Chore → EdgeWait → Prop where
  | starts (first : Tick) : Goes .starting [.observed first] (.observing first)
  | same (first : Tick) : Goes (.observing first) [.observed first] (.asking first)
  | edge {first t : Tick} (h : t ≠ first) : Goes (.observing first) [.observed t] (.ended (some t))
  | unset (first : Tick) : Goes (.asking first) [.looked false] (.observing first)
  | isSet (first : Tick) : Goes (.asking first) [.looked true] (.ended none)

/-- Polls that showed neither an edge nor the flag. -/
def pollChores (first : Tick) : Nat → List Chore
  | 0 => [.observed first]
  | polls + 1 => pollChores first polls ++ [.observed first, .looked false]

/-- What a wait has done where it stands. Each poll is an observation, and only if it is the same
as the first one a look at the flag. -/
inductive EdgeWait.Shows : EdgeWait → List Chore → Prop where
  | starting : Shows .starting []
  | observing (first : Tick) (polls : Nat) : Shows (.observing first) (pollChores first polls)
  | asking (first : Tick) (polls : Nat) :
      Shows (.asking first) (pollChores first polls ++ [.observed first])
  | edge (first : Tick) (polls : Nat) {t : Tick} (h : t ≠ first) :
      Shows (.ended (some t)) (pollChores first polls ++ [.observed t])
  | done (first : Tick) (polls : Nat) :
      Shows (.ended none) (pollChores first polls ++ [.observed first, .looked true])

section Waits

variable {e : Surroundings W} {i : Interferer W} {x y : EdgeWait} {wait more : List Chore}

theorem EdgeWait.Shows.goes (h : x.Shows wait) (hgoes : x.Goes more y) :
    y.Shows (wait ++ more) := by
  cases hgoes with
  | starts first => cases h; exact .observing first 0
  | same first =>
    cases h with | observing _ polls => exact .asking first polls
  | edge hedge =>
    cases h with | observing _ polls => exact .edge _ polls hedge
  | unset first =>
    cases h with
    | asking _ polls =>
      rw [List.append_assoc]
      exact .observing first (polls + 1)
  | isSet first =>
    cases h with
    | asking _ polls =>
      rw [List.append_assoc]
      exact .done first polls

theorem Interferer.Heeds.step_wait (h : i.Heeds e) (hover : x.over = false) (s : Scene W) :
    ∃ more, x.Goes more (EdgeWait.step (i.among e).observe (i.among e).done (x, s)).1 ∧
      s.Leads e more (EdgeWait.step (i.among e).observe (i.among e).done (x, s)).2 := by
  cases x with
  | starting => exact ⟨_, .starts _, h.act_observe s⟩
  | observing first =>
    refine ⟨_, ?_, h.act_observe s⟩
    simp only [EdgeWait.step]
    split
    case isTrue heq => rw [heq]; exact .same first
    case isFalse hne => exact .edge hne
  | asking first =>
    refine ⟨_, ?_, h.act_done s⟩
    simp only [EdgeWait.step]
    cases ((i.among e).done s).1 with
    | false => exact .unset first
    | true => exact .isSet first
  | ended edge => cases hover

/-- What every step of a wait keeps: it shows what was done since the scene in which it began, and
if it gave up the flag is set. -/
def EdgeWait.Since (e : Surroundings W) (s : Scene W) (p : EdgeWait × Scene W) : Prop :=
  ∃ wait, p.2.chores = s.chores ++ wait ∧ p.1.Shows wait ∧
    (p.1 = .ended none → e.isSet p.2.world = true)

theorem Interferer.Heeds.since_step (h : i.Heeds e) {s : Scene W} {p : EdgeWait × Scene W}
    (hover : p.1.over = false) (hp : EdgeWait.Since e s p) :
    EdgeWait.Since e s (EdgeWait.step (i.among e).observe (i.among e).done p) := by
  obtain ⟨x, u⟩ := p
  obtain ⟨wait, hchores, hshows, -⟩ := hp
  obtain ⟨more, hgoes, hleads⟩ := h.step_wait hover u
  refine ⟨wait ++ more, ?_, hshows.goes hgoes, ?_⟩
  · rw [hleads.chores_eq, hchores, List.append_assoc]
  · intro hnone
    rw [hnone] at hgoes
    cases hgoes with
    | isSet first => exact hleads.lasts (hleads.looks true (List.mem_singleton_self _)).symm

theorem Interferer.Heeds.await (h : i.Heeds e) {fuel : Nat} {s t : Scene W} {edge : Option Tick}
    (hwait : awaitEdgeOr (i.among e).observe (i.among e).done fuel s = some (edge, t)) :
    EdgeWait.Since e s (.ended edge, t) := by
  rw [awaitEdgeOr, Option.map_eq_some_iff] at hwait
  obtain ⟨⟨x, u⟩, hends, heq⟩ := hwait
  cases heq
  have hover := stop_of_iterate hends
  have hsince : EdgeWait.Since e s (x, t) := by
    refine iterate_invariant (P := EdgeWait.Since e s) (fun _ hgo => h.since_step hgo) ?_ hends
    exact ⟨[], by simp, .starting, by rintro ⟨⟩⟩
  cases x with
  | ended edge => exact hsince
  | starting | observing | asking => cases hover

end Waits

end LatencyGauge
