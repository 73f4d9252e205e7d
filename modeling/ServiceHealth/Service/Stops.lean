import ServiceHealth.Service.Schedule

/-!
# Starting and stopping tasks

A task runs from the moment it is started. A call to stop it fires its signal and takes it on; the
first call to do so waits for the end of its body and answers with its result, every other call
has nothing to wait for. A call that is given up leaves the body alone.
-/

namespace ServiceHealth.Service

/-- Starts a task; it is the one with the answered number. -/
def startTask (s : Service) (t : Shutdown.Task) : Nat × Service :=
  let s' := s.spawn (.ofBody s.tasks.length t)
  (s.tasks.length, { s' with tasks := s.tasks ++ [⟨t.name, false, s.jobs.length, false⟩] })

/-- Whether a task was taken on or its body has ended. -/
def isFinished (s : Service) (task : Nat) : Bool :=
  match s.tasks[task]? with
  | some t => t.claimed || (s.result? t.body).isSome
  | none => true

/-- What a call to stop a task gives: the result of the body, or success if there was nothing to
wait for, or that it was given up. -/
inductive StopAnswer where
  | result (r : Shutdown.Result)
  | gaveUp
  deriving DecidableEq, Repr

/-- A call to stop a task: the body it waits for, if it has taken the task on, the moment at which
it is given up, and the answer once there is one. -/
structure StopCall where
  awaited : Option JobId
  deadline : Option Nat
  answer : Option StopAnswer
  deriving DecidableEq, Repr

/-- Looks at a call: a result counts even when the call would be given up. -/
def StopCall.poll (c : StopCall) (s : Service) : StopCall :=
  match c.answer, c.awaited with
  | some _, _ => c
  | none, none => { c with answer := some (.result .ok) }
  | none, some job =>
    match s.result? job with
    | some r => { c with answer := some (.result r.asStop) }
    | none =>
      if c.deadline.any (· ≤ s.now) then { c with answer := some .gaveUp } else c

/-- Makes calls to stop a task, one after the other. -/
def startStops (task : Nat) (deadline : Option Nat) : Nat → Service → List StopCall × Service
  | 0, s => ([], s)
  | count + 1, s =>
    let (awaited, s) := (s.fire task).claim task
    let call := StopCall.poll ⟨awaited, deadline, none⟩ s
    let (rest, s) := startStops task deadline count s
    (call :: rest, s)

/-- A waiter for calls to stop a task. -/
def stopping : Waiter (List StopCall) where
  poll := fun calls s => (calls.map (·.poll s), s)
  isDone := fun calls => calls.all (·.answer.isSome)
  moments := fun calls => calls.filterMap (·.deadline)

/-- Makes a number of calls to stop a task at once, given up after some time. The answer of a call
that never ends is missing. -/
def stopTask (s : Service) (task count : Nat) (giveUp : Option Nat) :
    List (Option StopAnswer) × Service :=
  let (calls, s') := startStops task (giveUp.map (wakeTime s.now)) count s
  let (calls, s') := await stopping calls s'
  (calls.map (·.answer), s')

end ServiceHealth.Service
