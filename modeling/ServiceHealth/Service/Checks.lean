import ServiceHealth.Probe.Route
import ServiceHealth.Metrics.Exposition
import ServiceHealth.Service.Schedule

/-!
# Checks and requests

An aggregation runs every registered checker at once, each in a job of its own, and is over when
every one of them has given its result or the common deadline has come. Whatever has not ended by
then is given up and counts as timed out. The report has the flags, the time and the names of the
moment at which it was asked for. The checkers are asked in any order, which may be another one each
time.

A liveness request is answered from one aggregation, and the shutdown flag is read again when it
is over. A request changes nothing but the metrics of its own probe.

* `rollCall_perm`, `start_names`: whoever is registered is asked once, in whatever order.
-/

namespace ServiceHealth.Service

/-! ## 1. Aggregations -/

/-- A deadline that cannot be computed: the moment would lie beyond the last one. -/
inductive Overflow where
  | deadline
  deriving DecidableEq, Repr

/-- The wording of an overflow. -/
def Overflow.message : Overflow → String
  | .deadline => "overflow when adding duration to instant"

/-- A checker that was asked: its name, the job of its run, and the outcome once there is one. -/
structure Entry where
  name : String
  job : JobId
  outcome : Option Health.Outcome
  deriving DecidableEq, Repr

/-- Checkers that were asked together, in the order in which they were, with the time of day and the
flags of that moment, and the moment by which they have to answer. -/
structure Aggregation where
  time : Time.Stamp
  flags : Health.Flags
  deadline : Nat
  entries : List Entry
  deriving DecidableEq, Repr

/-- Starts a run of each of some registered checkers, given by name and number. -/
def startRuns (deadline : Nat) : List (String × Nat) → Service → List Entry × Service
  | [], s => ([], s)
  | (name, number) :: rest, s =>
    let job := match s.checkers[number]? with
      | some e => Job.ofRun number e.checker deadline
      | none => Job.ofRun number (.content name) deadline
    let (entries, s') := startRuns deadline rest (s.spawn job)
    (⟨name, s.jobs.length, none⟩ :: entries, s')

/-- The registered checkers, in the order in which they are asked now. The number of jobs tells one
time from another. -/
def rollCall (s : Service) : List (String × Nat) :=
  s.setup.iteration.order s.jobs.length s.roster.entries

/-- Asks every registered checker. -/
def startAggregation (s : Service) (deadline : Nat) : Aggregation × Service :=
  let (entries, s') := startRuns deadline s.rollCall s
  (⟨s.clock, s.flags, deadline, entries⟩, s')

/-- Looks at one of the checkers: its result counts even at the deadline. -/
def Entry.poll (deadline : Nat) (e : Entry) (s : Service) : Entry × Service :=
  match e.outcome with
  | some _ => (e, s)
  | none =>
    match s.result? e.job with
    | some r => ({ e with outcome := some r.asCheck }, s)
    | none =>
      if deadline ≤ s.now then
        ({ e with outcome := some (.failed .timedOut) }, s.abort e.job)
      else (e, s)

/-- Looks at the checkers one after the other. -/
def pollEntries (deadline : Nat) : List Entry → Service → List Entry × Service
  | [], s => ([], s)
  | e :: rest, s =>
    let (e', s) := e.poll deadline s
    let (rest', s) := pollEntries deadline rest s
    (e' :: rest', s)

namespace Aggregation

/-- Looks at the checkers. -/
def poll (a : Aggregation) (s : Service) : Aggregation × Service :=
  let (entries, s') := pollEntries a.deadline a.entries s
  ({ a with entries }, s')

/-- Whether every checker has an outcome. -/
def isDone (a : Aggregation) : Bool := a.entries.all fun e => e.outcome.isSome

/-- The results, in the order in which the checkers were asked. -/
def results (a : Aggregation) : List Health.CheckResult :=
  a.entries.map fun e => .ofOutcome e.name (e.outcome.getD (.failed .timedOut))

/-- The report. -/
def report (a : Aggregation) : Health.Report := .ofResults a.time a.flags a.results

end Aggregation

/-- Starts a number of aggregations with one deadline. -/
def startAggregations (deadline : Nat) : Nat → Service → List Aggregation × Service
  | 0, s => ([], s)
  | count + 1, s =>
    let (a, s) := s.startAggregation deadline
    let (rest, s) := startAggregations deadline count s
    (a :: rest, s)

/-- Looks at aggregations one after the other. -/
def pollAggregations : List Aggregation → Service → List Aggregation × Service
  | [], s => ([], s)
  | a :: rest, s =>
    let (a', s) := a.poll s
    let (rest', s) := pollAggregations rest s
    (a' :: rest', s)

/-- A waiter for aggregations. -/
def aggregating : Waiter (List Aggregation) where
  poll := pollAggregations
  isDone := fun as => as.all (·.isDone)
  moments := fun as => as.map (·.deadline)

/-- The reports of a number of aggregations at once, against a common deadline. -/
def checkMany (s : Service) (count timeout : Nat) :
    Except Overflow (List Health.Report) × Service :=
  match deadline? s.now timeout with
  | none => (.error .deadline, s)
  | some deadline =>
    let (as, s) := startAggregations deadline count s
    let (as, s) := await aggregating as s
    (.ok (as.map (·.report)), s)

/-- The report of one aggregation. -/
def check (s : Service) (timeout : Nat) : Except Overflow Health.Report × Service :=
  match deadline? s.now timeout with
  | none => (.error .deadline, s)
  | some deadline =>
    let (a, s) := s.startAggregation deadline
    let (as, s) := await aggregating [a] s
    (.ok (as.headD a).report, s)

/-- **Whoever is registered is asked once**, in whatever order. -/
theorem rollCall_perm (s : Service) : s.rollCall.Perm s.roster.entries :=
  s.setup.iteration.perm s.jobs.length s.roster.entries

/-- **An aggregation has one entry per name**, in the order in which the checkers were asked. -/
theorem start_names (s : Service) (deadline : Nat) :
    (s.startAggregation deadline).1.entries.map (·.name) = s.rollCall.map (·.1) := by
  have h : ∀ (xs : List (String × Nat)) (s : Service),
      (startRuns deadline xs s).1.map (·.name) = xs.map (·.1) := by
    intro xs
    induction xs with
    | nil => intro s; rfl
    | cons x rest ih => intro s; simp [startRuns, ih]
  exact h s.rollCall s

theorem start_names_perm (s : Service) (deadline : Nat) :
    ((s.startAggregation deadline).1.entries.map (·.name)).Perm s.checkerNames :=
  start_names s deadline ▸ s.rollCall_perm.map _

/-! ## 2. Requests -/

/-- Answers a readiness request, and publishes the flags it has seen. -/
def readyz (s : Service) : Probe.Response × Service :=
  (Probe.readiness s.flags, { s with metrics := s.metrics.observeFlags s.flags })

/-- Answers a liveness request, and publishes the report. -/
def healthz (s : Service) : Except Overflow Probe.Response × Service :=
  match s.check s.setup.checkTimeout with
  | (.error e, s) => (.error e, s)
  | (.ok report, s) =>
    (.ok (Probe.liveness report s.flags.shuttingDown),
      { s with metrics := s.metrics.observeReport report })

/-- Answers a request. -/
def respond (s : Service) (request : Probe.Request) :
    Except Overflow Probe.Response × Service :=
  match request.target with
  | .nowhere => (.ok Probe.missing, s)
  | .refused => (.ok Probe.forbidden, s)
  | .route .healthz withBody =>
    let (answer, s) := s.healthz
    (answer.map (·.sent withBody), s)
  | .route .readyz withBody =>
    let (answer, s) := s.readyz
    (.ok (answer.sent withBody), s)
  | .route .metrics withBody =>
    (.ok ((Probe.exposed s.metrics.exposition).sent withBody), s)

/-- **A request for nothing, or by a method that is not allowed, changes nothing.** -/
theorem respond_refused (s : Service) (request : Probe.Request)
    (h : request.target = .nowhere ∨ request.target = .refused) :
    (s.respond request).2 = s := by
  rcases h with h | h <;> simp [respond, h]

end ServiceHealth.Service
