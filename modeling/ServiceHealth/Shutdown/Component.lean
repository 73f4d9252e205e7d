import ServiceHealth.Health.Checker

/-!
# Components and tasks

A component is stopped by its teardown, which may take some time and write the flags. A task is a
job of its own that runs from the start and, as a component, is stopped by a signal; it may wait
for the signal or not. Both end well, with an error, with a panic, or never.
-/

namespace ServiceHealth.Shutdown

/-- What can go wrong with a component: it says so itself, the system below it says so, or it has
panicked. -/
inductive ComponentError where
  | failed (text : String)
  | io (text : String)
  | panicked (text : String)
  deriving DecidableEq, Repr

/-- The wording of an error. -/
def ComponentError.message : ComponentError → String
  | .failed text => text
  | .io text => "I/O error: " ++ text
  | .panicked text => "component panicked: " ++ text

/-- What stopping a component gives. -/
inductive Result where
  | ok
  | error (e : ComponentError)
  deriving DecidableEq, Repr

/-- How a teardown or a task ends: with a result, with a panic, or never. -/
inductive Ending where
  | returns (result : Result)
  | panics (payload : Payload)
  | hangs
  deriving DecidableEq

/-- A component. Its teardown takes `delay` milliseconds, if any, does the actions then, and ends.
-/
structure Component where
  name : String
  delay : Option Nat
  actions : List (Health.Action Health.Checker)
  ending : Ending

/-- A task. It waits for its signal first if it `waits`, takes `delay` milliseconds then, if any,
and ends. -/
structure Task where
  name : String
  waits : Bool
  delay : Option Nat
  ending : Ending

end ServiceHealth.Shutdown
