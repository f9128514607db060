/-
The completion flag of a run: clear at first, set once, never cleared.
-/

namespace LatencyGauge

/-! ## Completion -/

/-- Whether the run is complete. -/
structure Completion where
  isSet : Bool
deriving DecidableEq, Repr

/-- The run goes on. -/
def Completion.clear : Completion := ⟨false⟩

/-- Sets the flag; the result tells whether this call was the one that did. -/
def Completion.set (c : Completion) : Bool × Completion := (!c.isSet, ⟨true⟩)

@[simp] theorem Completion.isSet_set (c : Completion) : c.set.2.isSet = true := rfl

end LatencyGauge
