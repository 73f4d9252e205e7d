import ServiceHealth.Log.Logger
import ServiceHealth.Service.Job
import ServiceHealth.Shutdown.Report

/-!
# The state of a service

A service holds its flags, the checkers registered under their names, its metrics, the components
to stop, the tasks and all jobs it has started, with a queue of those that can go on. Moments are
milliseconds since the start; a deadline beyond the last moment cannot be computed.

* `note_*`, `perform_*`: what the elementary changes leave alone.
-/

namespace ServiceHealth

namespace Service

/-! ## 1. Parts -/

/-- A registered checker, with the jobs that have begun a run of it, the first one first. -/
structure Enrolled where
  checker : Health.Checker
  runs : List JobId

/-- A task that has been started: whether its signal has been fired, the job of its body, and
whether someone has taken it on to wait for the end of the body. -/
structure RunningTask where
  name : String
  fired : Bool
  body : JobId
  claimed : Bool
  deriving DecidableEq, Repr

/-- Something to stop on shutdown: a component, or a task by its number. -/
inductive Member where
  | component (c : Shutdown.Component)
  | task (task : Nat)

/-- Something that a job has noted: when, and under which name. -/
structure Event where
  moment : Nat
  job : JobId
  who : String
  what : String
  deriving DecidableEq, Repr

/-- How far the shutdown has come: it has not begun, the components are being stopped, or it is
over. -/
inductive Phase where
  | running
  | draining
  | stopped
  deriving DecidableEq, Repr

/-- The word for a phase. -/
def Phase.word : Phase → String
  | .running => "running"
  | .draining => "draining"
  | .stopped => "stopped"

/-- In which order a table is gone through, each time anew: the same entries, in any order. -/
structure Iteration where
  order : Nat → List (String × Nat) → List (String × Nat)
  perm : ∀ time entries, (order time entries).Perm entries

/-- Every time in the order of the names. -/
def Iteration.ascending : Iteration := ⟨fun _ entries => entries, fun _ _ => .refl _⟩

/-- What is fixed for the life of a service: the time for the checks of one probe and the one for a
shutdown, in milliseconds, whether the shutdown publishes metrics, its logger, and in which order
the registered checkers are gone through. -/
structure Setup where
  checkTimeout : Nat
  drainTimeout : Nat
  publishes : Bool
  logger : Log.Logger
  iteration : Iteration := .ascending

end Service

/-- The state of a service. The roster has the numbers of the registered checkers, by name; all
checkers that were ever registered, the tasks and the jobs are kept by number. What to stop on
shutdown is in the order of registration, the queue has the jobs that can go on, the next one first,
and `reported` counts the events that have been asked for. -/
structure Service where
  setup : Service.Setup
  now : Nat
  clock : Time.Stamp
  flags : Health.Flags
  roster : Keyed Nat
  checkers : List Service.Enrolled
  metrics : Metrics
  members : List Service.Member
  phase : Service.Phase
  tasks : List Service.RunningTask
  jobs : List Service.Job
  queue : List Service.JobId
  events : List Service.Event
  reported : Nat
  log : List Log.Record

namespace Service

/-- A service in which nothing has happened. -/
def new (setup : Setup) (clock : Time.Stamp) : Service where
  setup := setup
  now := 0
  clock := clock
  flags := ⟨false, false⟩
  roster := .empty
  checkers := []
  metrics := .fresh
  members := []
  phase := .running
  tasks := []
  jobs := []
  queue := []
  events := []
  reported := 0
  log := []

/-! ## 2. Moments -/

/-- One past the last moment that can be computed. -/
def momentLimit : Nat := Nat.pow 2 63 * 1000

/-- A moment some time after another, if it can be computed. -/
def deadline? (now timeout : Nat) : Option Nat :=
  if now + timeout < momentLimit then some (now + timeout) else none

/-- Thirty years, in milliseconds. -/
def farFuture : Nat := 30 * 365 * 86400 * 1000

/-- When a sleep ends: one that has no computable end takes thirty years. -/
def wakeTime (now duration : Nat) : Nat :=
  (deadline? now duration).getD (now + farFuture)

/-! ## 3. Elementary changes -/

/-- Notes an event. -/
def note (s : Service) (job : JobId) (who what : String) : Service :=
  { s with events := s.events ++ [⟨s.now, job, who, what⟩] }

/-- Registers a checker under its name, in place of the one that was there. -/
def register (s : Service) (c : Health.Checker) : Service :=
  { s with
    roster := s.roster.insert c.name s.checkers.length
    checkers := s.checkers ++ [⟨c, []⟩] }

/-- Does what an action says. -/
def performAction (s : Service) : Health.Action Health.Checker → Service
  | .setReady value => { s with flags := { s.flags with ready := value } }
  | .setShuttingDown value => { s with flags := { s.flags with shuttingDown := value } }
  | .register c => s.register c

/-- The names of the registered checkers, in order. -/
def checkerNames (s : Service) : List String := s.roster.keys

/-- Whether the signal of a task has been fired. -/
def isFired (s : Service) (task : Nat) : Bool :=
  match s.tasks[task]? with
  | some t => t.fired
  | none => false

/-- Changes a task. -/
def updateTask (s : Service) (task : Nat) (f : RunningTask → RunningTask) : Service :=
  { s with tasks := s.tasks.modify task f }

/-- Changes a job. -/
def updateJob (s : Service) (job : JobId) (f : Job → Job) : Service :=
  { s with jobs := s.jobs.modify job f }

/-- What a job has given, if it has come to its close. -/
def result? (s : Service) (job : JobId) : Option Result :=
  match s.jobs[job]? with
  | some j =>
    match j.state with
    | .ended r => some r
    | _ => none
  | none => none

/-- Writes a record to the log of the shutdown. -/
def logged (s : Service) (level : Log.Level) (message : String) (fields : List Log.Field) :
    Service :=
  { s with log := s.log ++ [s.setup.logger.record level message fields] }

/-- The registry in words: the names of the checkers, quoted, and the flags. -/
def describe (s : Service) : String :=
  "HealthRegistry \x7b checkers: [" ++ String.intercalate ", " (s.checkerNames.map Text.quote)
    ++ "], ready: " ++ toString s.flags.ready
    ++ ", shutting_down: " ++ toString s.flags.shuttingDown ++ " \x7d"

@[simp] theorem performAction_jobs (s : Service) (a : Health.Action Health.Checker) :
    (s.performAction a).jobs = s.jobs := by cases a <;> rfl

@[simp] theorem performAction_now (s : Service) (a : Health.Action Health.Checker) :
    (s.performAction a).now = s.now := by cases a <;> rfl

@[simp] theorem performAction_phase (s : Service) (a : Health.Action Health.Checker) :
    (s.performAction a).phase = s.phase := by cases a <;> rfl

end Service

end ServiceHealth
