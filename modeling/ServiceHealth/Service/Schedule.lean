import ServiceHealth.Service.State

/-!
# The schedule

One job runs at a time, until it is held up or has come to its close. A job that can go on again
joins the end of the queue. When the queue is empty the clock jumps to the next moment at which a
sleep ends or whoever waits for the service wants to look again; whoever waits looks before the
jobs that this moment wakes, so what has ended counts as ended and what has not is late.

* `settle`: runs jobs until the queue is empty.
* `await`: lets time pass until a waiter has what it waits for.
* `proceed_cons_hold`: a step that holds a job up ends its turn.
-/

namespace ServiceHealth.Service

/-! ## 1. Waking -/

/-- The numbers of the jobs in a state, ascending. -/
def jobsIn (s : Service) (p : JobState → Bool) : List JobId :=
  (List.range s.jobs.length).filter fun i =>
    match s.jobs[i]? with
    | some j => p j.state
    | none => false

/-- Makes the jobs in a state go on, after those that already can. -/
def wake (s : Service) (p : JobState → Bool) : Service :=
  { s with
    queue := s.queue ++ s.jobsIn p
    jobs := s.jobs.map fun j => if p j.state then { j with state := .ready } else j }

/-- Whether a job waits for the signal of a task. -/
def JobState.awaits (task : Nat) : JobState → Bool
  | .awaiting k => k == task
  | _ => false

/-- Whether a job waits for the end of another. -/
def JobState.joins (job : JobId) : JobState → Bool
  | .joining i => i == job
  | _ => false

/-- Whether a job sleeps at most until a moment. -/
def JobState.sleepsUntil (moment : Nat) : JobState → Bool
  | .sleeping t => t ≤ moment
  | _ => false

/-- Starts a job. -/
def spawn (s : Service) (j : Job) : Service :=
  { s with jobs := s.jobs ++ [j], queue := s.queue ++ [s.jobs.length] }

/-- Gives a job up, unless it has come to its close. -/
def abort (s : Service) (job : JobId) : Service :=
  s.updateJob job fun j =>
    match j.state with
    | .ended _ => j
    | _ => { j with state := .aborted }

/-- Fires the signal of a task. -/
def fire (s : Service) (task : Nat) : Service :=
  (s.updateTask task fun t => { t with fired := true }).wake (JobState.awaits task)

/-- Takes on a task, to wait for the end of its body; only the first to do so gets the body. -/
def claim (s : Service) (task : Nat) : Option JobId × Service :=
  match s.tasks[task]? with
  | some t =>
    (if t.claimed then none else some t.body, s.updateTask task fun t => { t with claimed := true })
  | none => (none, s)

/-! ## 2. The turn of a job -/

/-- Brings a job to its close with a result, and makes go on who waits for it. -/
def conclude (s : Service) (job : JobId) (r : Result) : Service :=
  (s.updateJob job fun j => { j with todo := [], state := .ended r }).wake (JobState.joins job)

/-- Holds a job up, with the steps it has still to do. -/
def hold (s : Service) (job : JobId) (todo : List Step) (close : Close) (state : JobState) :
    Service :=
  s.updateJob job fun j => { j with todo, close, state }

/-- The end of a run of a checker: it is the ending whose number the run has. -/
def closeRun (s : Service) (job : JobId) (checker deadline : Nat) : Service :=
  match s.checkers[checker]? with
  | none => s.conclude job (.checked .passed)
  | some e =>
    let noted := if e.checker.noted then s.note job e.checker.name "check end" else s
    match e.checker.ending (e.runs.idxOf job) with
    | .returns o => noted.conclude job (.checked o)
    | .timeLeft =>
      noted.conclude job
        (.checked (.failed (.unhealthy (toString (deadline - s.now) ++ " ms left"))))
    | .panics p => s.conclude job (.panicked p)
    | .hangs => s.hold job [] (.verdict checker deadline) .hung

/-- The end of a teardown or of the body of a task. -/
def closeEnding (s : Service) (job : JobId) : Shutdown.Ending → Service
  | .returns r => s.conclude job (.stopped r)
  | .panics p => s.conclude job (.panicked p)
  | .hangs => s.hold job [] (.ending .hangs) .hung

/-- Waits for the end of another job. -/
def closeJoin (s : Service) (job awaited : JobId) : Service :=
  match s.result? awaited with
  | some r => s.conclude job (.stopped r.asStop)
  | none => s.hold job [] (.join awaited) (.joining awaited)

/-- Brings a job without steps to its close. -/
def closeJob (s : Service) (job : JobId) : Close → Service
  | .verdict checker deadline => s.closeRun job checker deadline
  | .ending e => s.closeEnding job e
  | .stopTask task =>
    match (s.fire task).claim task with
    | (some body, s') => s'.closeJoin job body
    | (none, s') => s'.conclude job (.stopped .ok)
  | .join awaited => s.closeJoin job awaited

/-- A run of a checker begins. -/
def beginRun (s : Service) (job : JobId) (who : String) (checker : Nat) : Service :=
  let begun :=
    { s with checkers := s.checkers.modify checker fun e => { e with runs := e.runs ++ [job] } }
  match s.checkers[checker]? with
  | some e => if e.checker.noted then begun.note job who "check start" else begun
  | none => begun

/-- What a step does if it does not hold its job up. -/
def act (s : Service) (job : JobId) (who : String) : Step → Service
  | .begin checker => s.beginRun job who checker
  | .note what => s.note job who what
  | .noteStop deadline =>
    s.note job who ("stop start left=" ++ toString (deadline - s.now) ++ " " ++ s.flags.text)
  | .noteSignal what task =>
    s.note job who (what ++ " shutdown=" ++ toString (s.isFired task))
  | .sleep _ => s
  | .perform a => s.performAction a
  | .awaitSignal _ => s

/-- The state in which a step holds its job up, if it does. -/
def holdUp? (s : Service) : Step → Option JobState
  | .sleep duration => if duration = 0 then none else some (.sleeping (wakeTime s.now duration))
  | .awaitSignal task => if s.isFired task then none else some (.awaiting task)
  | _ => none

/-- The turn of a job, from the steps it has still to do. -/
def proceed (job : JobId) (who : String) (close : Close) : List Step → Service → Service
  | [], s => s.closeJob job close
  | step :: rest, s =>
    match s.holdUp? step with
    | some state => s.hold job rest close state
    | none => proceed job who close rest (s.act job who step)

/-- The turn of a job, if it can go on. -/
def resume (s : Service) (job : JobId) : Service :=
  match s.jobs[job]? with
  | some j => if j.state = .ready then proceed job j.who j.close j.todo s else s
  | none => s

/-- **A step that holds a job up ends its turn.** -/
theorem proceed_cons_hold {job : JobId} {who : String} {close : Close} {step : Step}
    {rest : List Step} {s : Service} {state : JobState} (h : s.holdUp? step = some state) :
    proceed job who close (step :: rest) s = s.hold job rest close state := by
  simp [proceed, h]

theorem proceed_cons_act {job : JobId} {who : String} {close : Close} {step : Step}
    {rest : List Step} {s : Service} (h : s.holdUp? step = none) :
    proceed job who close (step :: rest) s =
      proceed job who close rest (s.act job who step) := by
  simp [proceed, h]

/-! ## 3. Running until nothing can go on -/

/-- How often the jobs can at most be held up from now on. -/
def effort (s : Service) : Nat := (s.jobs.map fun j => j.todo.length + 2).foldr (· + ·) 0

/-- Gives turns to the jobs of the queue, as many as there is fuel. -/
def settleLoop : Nat → Service → Service
  | 0, s => s
  | fuel + 1, s =>
    match s.queue with
    | [] => s
    | job :: rest => settleLoop fuel (resume { s with queue := rest } job)

/-- Runs jobs until the queue is empty. A turn takes a job from the queue, and a job joins it
again only after having been held up. -/
def settle (s : Service) : Service := settleLoop (s.queue.length + s.effort) s

/-! ## 4. Letting time pass -/

/-- The moments at which sleeps end. -/
def sleepEnds (s : Service) : List Nat :=
  s.jobs.filterMap fun j =>
    match j.state with
    | .sleeping t => some t
    | _ => none

/-- Lets the clock jump to a moment. -/
def advance (s : Service) (moment : Nat) : Service :=
  ({ s with now := moment }).wake (JobState.sleepsUntil moment)

/-- Someone who waits for the service: looks at it, and may change it, until there is nothing left
to wait for, and has moments at which to look again. -/
structure Waiter (σ : Type) where
  poll : σ → Service → σ × Service
  isDone : σ → Bool
  moments : σ → List Nat

/-- The next moment at which something happens, after the current one. -/
def nextMoment? {σ : Type} (w : Waiter σ) (st : σ) (s : Service) : Option Nat :=
  ((s.sleepEnds ++ w.moments st).filter (s.now < ·)).min?

/-- Lets time pass, moment by moment, as long as there is fuel. -/
def awaitLoop {σ : Type} (w : Waiter σ) : Nat → σ → Service → σ × Service
  | 0, st, s => (st, s)
  | fuel + 1, st, s =>
    let (st, s) := w.poll st s
    if w.isDone st then (st, s)
    else
      let (st, s) := w.poll st s.settle
      if w.isDone st then (st, s)
      else
        match nextMoment? w st s with
        | some moment => awaitLoop w fuel st (s.advance moment)
        | none => (st, s)

/-- Lets time pass until a waiter has what it waits for. Every moment ends a sleep or is one at
which the waiter wanted to look again. -/
def await {σ : Type} (w : Waiter σ) (st : σ) (s : Service) : σ × Service :=
  awaitLoop w (s.effort + (w.moments st).length + 1) st s

/-- A waiter for a moment. -/
def pause : Waiter (Nat × Bool) where
  poll := fun (moment, _) s => ((moment, decide (moment ≤ s.now)), s)
  isDone := fun (_, reached) => reached
  moments := fun (moment, _) => [moment]

/-- Lets some time pass. -/
def sleep (s : Service) (duration : Nat) : Service :=
  (await pause (wakeTime s.now duration, false) s).2

end ServiceHealth.Service
