import ServiceHealth.Metrics.Basic
import ServiceHealth.Shutdown.Component

/-!
# Shutdown reports

Stopping a component comes out in one of three ways: it has stopped, it has stopped with an
error, or it had not stopped in time. A shutdown reports one outcome per component, in the order
in which the components were registered.

* `isClean_iff`: a shutdown is clean if no component is listed as failed.
* `verdict_ok_iff`: the verdict is good exactly for a clean shutdown.
-/

namespace ServiceHealth.Shutdown

/-! ## 1. Outcomes -/

/-- How stopping a component came out: it has stopped, perhaps with an error, or it had not stopped
in time and was left to itself. -/
inductive Fate where
  | stopped
  | failed (error : ComponentError)
  | timedOut
  deriving DecidableEq, Repr

namespace Fate

/-- The kind of a fate, for counting. -/
def kind : Fate → StopKind
  | .stopped => .ok
  | .failed _ => .error
  | .timedOut => .timeout

/-- The error, if there is one. -/
def error? : Fate → Option ComponentError
  | .failed e => some e
  | _ => none

/-- The fate of a component whose teardown has given a result. -/
def ofResult : Result → Fate
  | .ok => .stopped
  | .error e => .failed e

end Fate

/-- The outcome of stopping one component. -/
structure Outcome where
  component : String
  fate : Fate
  deriving DecidableEq, Repr

namespace Outcome

/-- Whether the component has stopped without an error. -/
def isOk (o : Outcome) : Bool := o.fate == .stopped

/-- Whether the component had not stopped in time. -/
def timedOut (o : Outcome) : Bool := o.fate == .timedOut

end Outcome

/-! ## 2. Reports -/

/-- The outcomes of a shutdown, one per component, in the order of registration. -/
structure Report where
  outcomes : List Outcome
  deriving DecidableEq, Repr

/-- The complaint about a shutdown that was not clean: the components that did not stop without an
error. -/
structure Incomplete where
  failed : List String
  deriving DecidableEq, Repr

/-- The wording of the complaint. -/
def Incomplete.message (e : Incomplete) : String :=
  "components did not stop cleanly: " ++ String.intercalate ", " e.failed

namespace Report

/-- The report without an outcome. -/
def empty : Report := ⟨[]⟩

/-- The first outcome of a component with a name. -/
def outcome? (r : Report) (name : String) : Option Outcome :=
  r.outcomes.find? fun o => o.component = name

/-- Whether every component has stopped without an error. -/
def isClean (r : Report) : Bool := r.outcomes.all (·.isOk)

/-- The names of the components that have not. -/
def failed (r : Report) : List String :=
  (r.outcomes.filter fun o => !o.isOk).map (·.component)

/-- A good end, or the complaint. -/
def verdict (r : Report) : Except Incomplete Unit :=
  if r.isClean then .ok () else .error ⟨r.failed⟩

/-- **A shutdown is clean if no component is listed as failed.** -/
theorem isClean_iff (r : Report) : r.isClean = true ↔ r.failed = [] := by
  simp [isClean, failed, List.filter_eq_nil_iff]

/-- **The verdict is good exactly for a clean shutdown.** -/
theorem verdict_ok_iff (r : Report) : r.verdict = .ok () ↔ r.isClean = true := by
  unfold verdict
  split <;> simp_all

end Report

end ServiceHealth.Shutdown
