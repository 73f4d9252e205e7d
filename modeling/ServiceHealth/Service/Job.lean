import ServiceHealth.Shutdown.Component

/-!
# Jobs

A job is a list of steps and a close. Most steps are done at once; a sleep and a wait for a signal
hold the job up. What a job gives when it has come to its close is its result. Runs of checkers,
teardowns of components and bodies of tasks are jobs, each with a script of its own.
-/

namespace ServiceHealth.Service

/-- The number of a job, in the order in which jobs are started. -/
abbrev JobId := Nat

/-! ## 1. Results -/

/-- What a job gives: the outcome of a check, the result of a teardown or a task, or a panic. -/
inductive Result where
  | checked (outcome : Health.Outcome)
  | stopped (result : Shutdown.Result)
  | panicked (payload : Payload)
  deriving DecidableEq, Repr

namespace Result

/-- A result as whoever asked for a check sees it. -/
def asCheck : Result → Health.Outcome
  | .checked o => o
  | .stopped _ => .passed
  | .panicked _ => .failed .panicked

/-- A result as whoever stops a component sees it. -/
def asStop : Result → Shutdown.Result
  | .checked _ => .ok
  | .stopped r => r
  | .panicked p => .error (.panicked p.report)

end Result

/-! ## 2. Scripts -/

/-- One step of a job. A run of a checker begins; a text is noted, that a teardown begins with the
time left until its deadline and the flags (`noteStop`), or a text with what the signal of a task
reads (`noteSignal`); some milliseconds are slept; something is done to the service; or the signal
of a task is waited for. -/
inductive Step where
  | begin (checker : Nat)
  | note (what : String)
  | noteStop (deadline : Nat)
  | noteSignal (what : String) (task : Nat)
  | sleep (duration : Nat)
  | perform (action : Health.Action Health.Checker)
  | awaitSignal (task : Nat)

/-- How a job comes to its close: a run of a checker, or a teardown or a task, ends in its way; a
task is stopped, so that its signal is fired and its end waited for; or the end of another job is
waited for. -/
inductive Close where
  | verdict (checker deadline : Nat)
  | ending (ending : Shutdown.Ending)
  | stopTask (task : Nat)
  | join (job : JobId)
  deriving DecidableEq

/-- Where a job stands: it can go on, it sleeps until a moment, it waits for the signal of a task or
for the end of another job, it hangs and never goes on, it has given its result, or it was given up
and never goes on. -/
inductive JobState where
  | ready
  | sleeping (moment : Nat)
  | awaiting (task : Nat)
  | joining (job : JobId)
  | hung
  | ended (result : Result)
  | aborted
  deriving DecidableEq, Repr

/-- A job: the name under which it notes what it does, the steps it has still to do, how it comes to
its close, and where it stands. -/
structure Job where
  who : String
  todo : List Step
  close : Close
  state : JobState

/-! ## 3. The jobs of the service -/

/-- A delay and the actions after it. -/
def work (delay : Option Nat) (actions : List (Health.Action Health.Checker)) : List Step :=
  (delay.map Step.sleep).toList ++ actions.map Step.perform

namespace Job

/-- A run of a checker, which is the one with a number, against a deadline. -/
def ofRun (checker : Nat) (c : Health.Checker) (deadline : Nat) : Job where
  who := c.name
  todo := .begin checker :: work c.delay c.actions
  close := .verdict checker deadline
  state := .ready

/-- The teardown of a component against a deadline. -/
def ofTeardown (c : Shutdown.Component) (deadline : Nat) : Job where
  who := c.name
  todo := .noteStop deadline :: (work c.delay c.actions
    ++ match c.ending with
      | .returns _ => [.note "stop end"]
      | _ => [])
  close := .ending c.ending
  state := .ready

/-- The body of a task, which is the one with a number. -/
def ofBody (task : Nat) (t : Shutdown.Task) : Job where
  who := t.name
  todo := .noteSignal "task start" task ::
    ((if t.waits then [.awaitSignal task, .note "task signalled"] else [])
      ++ work t.delay []
      ++ match t.ending with
        | .hangs => []
        | _ => [.noteSignal "task end" task])
  close := .ending t.ending
  state := .ready

/-- The teardown of a task: there is nothing to do but to stop it. -/
def ofStop (task : Nat) (name : String) : Job where
  who := name
  todo := []
  close := .stopTask task
  state := .ready

end Job

end ServiceHealth.Service
