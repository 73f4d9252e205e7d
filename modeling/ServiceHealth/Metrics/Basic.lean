import ServiceHealth.Decimal.Positional
import ServiceHealth.Health.Report

/-!
# Metrics

The service keeps three gauges that are zero or one, the expiry of its certificate, and two
families of counters: failed checks by the name of the check, and the outcomes of stopping a
component by their kind.

* `count_increment`: counting an event adds one to its counter and to no other.
* `get?_increments`: what is found under a name after some events were counted.
-/

namespace ServiceHealth

/-! ## 1. Counters -/

namespace Keyed

/-- The count under a name; what was never counted stands at zero. -/
def count (t : Keyed Nat) (name : String) : Nat := (t.get? name).getD 0

/-- Counts an event under a name. -/
def increment (t : Keyed Nat) (name : String) : Keyed Nat := t.insert name (t.count name + 1)

/-- **Counting an event adds one to its counter and to no other.** -/
theorem count_increment (t : Keyed Nat) (name k : String) :
    (t.increment name).count k = t.count k + if k = name then 1 else 0 := by
  by_cases h : k = name
  · subst h
    simp [count, increment, get?_insert]
  · simp [count, increment, get?_insert, h]

/-- **What is found under a name after some events were counted.** -/
theorem get?_increments (t : Keyed Nat) (names : List String) (k : String) :
    (names.foldl increment t).get? k =
      if names.count k = 0 then t.get? k else some (t.count k + names.count k) := by
  induction names generalizing t with
  | nil => rfl
  | cons name names ih =>
    rw [List.foldl_cons, ih, count_increment, List.count_cons, increment, get?_insert]
    by_cases e : k = name
    · subst e
      by_cases more : names.count k = 0
      · simp [more]
      · simp [more, Nat.add_right_comm, Nat.add_assoc]
    · have other : (name == k) = false := by simpa using fun h : name = k => e h.symm
      simp [e, other]

theorem count_increments (t : Keyed Nat) (names : List String) (k : String) :
    (names.foldl increment t).count k = t.count k + names.count k := by
  unfold count
  rw [get?_increments]
  split
  · rename_i unnamed
    rw [unnamed]
    rfl
  · rfl

end Keyed

/-! ## 2. The metrics of the service -/

/-- How stopping a component came out. -/
inductive StopKind where
  | ok
  | error
  | timeout
  deriving DecidableEq, Repr

/-- The label of a kind. -/
def StopKind.label : StopKind → String
  | .ok => "ok"
  | .error => "error"
  | .timeout => "timeout"

/-- The metrics of the service: whether the last report was healthy, the flags as they were last
published, when the certificate expires, failed checks by name, and stopped components by the label
of the outcome. -/
structure Metrics where
  healthy : Bool
  flags : Health.Flags
  certificateExpiry : Decimal.Binary64
  failures : Keyed Nat
  outcomes : Keyed Nat
  deriving DecidableEq

namespace Metrics

/-- The metrics before anything has happened. -/
def fresh : Metrics := ⟨false, ⟨false, false⟩, .zero, .empty, .empty⟩

/-- Takes note of a report. -/
def observeReport (m : Metrics) (r : Health.Report) : Metrics :=
  { m with healthy := r.isHealthy, failures := r.failing.foldl Keyed.increment m.failures }

/-- Publishes the flags. -/
def observeFlags (m : Metrics) (flags : Health.Flags) : Metrics := { m with flags }

/-- Sets the expiry of the certificate. -/
def setCertificateExpiry (m : Metrics) (x : Decimal.Binary64) : Metrics :=
  { m with certificateExpiry := x }

/-- Counts the outcome of stopping a component under a label. -/
def countOutcome (m : Metrics) (label : String) : Metrics :=
  { m with outcomes := m.outcomes.increment label }

end Metrics

end ServiceHealth
