import ServiceHealth.Health.Report
import ServiceHealth.Panic

/-!
# Checkers

A checker looks at one part of the service each time it is run. It is described by what a run
does: it may take some time, write the flags or register another checker, and then it ends in one
of several ways. The first run ends in the first way of a list, the second in the second, and so
on; the last way is kept from then on.

* `ending_last`: a checker with one way to end always ends in that way.
-/

namespace ServiceHealth.Health

/-- What a run of a checker or of a component may do to the service. -/
inductive Action (χ : Type) where
  | setReady (value : Bool)
  | setShuttingDown (value : Bool)
  | register (checker : χ)

/-- How a run of a checker ends: with an outcome, unhealthy with the time that is left until the
deadline, with a panic, or never. -/
inductive CheckEnding where
  | returns (outcome : Outcome)
  | timeLeft
  | panics (payload : Payload)
  | hangs
  deriving DecidableEq

/-- A checker. A run takes `delay` milliseconds, if any, and then does the actions; one of a `noted`
checker notes when it starts and ends. The runs end as `endings` say, the first one first. -/
structure Checker where
  name : String
  noted : Bool
  delay : Option Nat
  actions : List (Action Checker)
  endings : List CheckEnding

namespace Checker

/-- How the run with a number ends; runs are numbered from zero. -/
def ending (c : Checker) (run : Nat) : CheckEnding :=
  (c.endings[run]?).getD ((c.endings.getLast?).getD (.returns .passed))

/-- A checker that finds everything in order. -/
def content (name : String) : Checker := ⟨name, false, none, [], [.returns .passed]⟩

/-- The checker of the certificate, which does not look at it yet. -/
def certificate : Checker := content "certificate"

/-- The checker of the connections, which does not count them yet. -/
def connections : Checker := content "tunnel_connections"

/-- **A checker with one way to end always ends in that way.** -/
theorem ending_last (name : String) (noted : Bool) (delay : Option Nat)
    (actions : List (Action Checker)) (e : CheckEnding) (run : Nat) :
    (Checker.mk name noted delay actions [e]).ending run = e := by
  cases run <;> simp [ending]

end Checker

end ServiceHealth.Health
