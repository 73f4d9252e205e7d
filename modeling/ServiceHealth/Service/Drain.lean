import ServiceHealth.Service.Checks

/-!
# Shutting down

The first call to shut down moves the service from running to draining, computes the deadline,
withdraws readiness and starts every teardown at once. It collects the outcomes in the order of
registration: what has ended counts as ended, and what has not ended at the deadline is reported
late and goes on by itself. When the last outcome is there the service is stopped. Every other
call is ignored. A deadline that cannot be computed breaks the call off before readiness is
withdrawn.

* `startCall_ignored`: a call to a service that is no longer running changes only the log.
-/

namespace ServiceHealth.Service

/-! ## 1. Starting -/

/-- Starts the teardown of one member, and answers its name and its job. -/
def startTeardown (s : Service) (deadline : Nat) : Member → (String × JobId) × Service
  | .component c => ((c.name, s.jobs.length), s.spawn (.ofTeardown c deadline))
  | .task task =>
    let name := match s.tasks[task]? with
      | some t => t.name
      | none => ""
    ((name, s.jobs.length), s.spawn (.ofStop task name))

/-- Starts the teardowns of members, in order. -/
def startTeardowns (deadline : Nat) : List Member → Service → List (String × JobId) × Service
  | [], s => ([], s)
  | m :: rest, s =>
    let (started, s) := s.startTeardown deadline m
    let (more, s) := startTeardowns deadline rest s
    (started :: more, s)

/-- Withdraws readiness and publishes that, if the shutdown publishes metrics. -/
def withdraw (s : Service) : Service :=
  let flags : Health.Flags := ⟨false, true⟩
  { s with
    flags
    metrics := if s.setup.publishes then s.metrics.observeFlags flags else s.metrics }

/-- Writes that readiness is withdrawn. -/
def logWithdrawal (s : Service) : Service :=
  s.logged .info "Readiness withdrawn, stopping components"
    [⟨"components", .nat s.members.length⟩, ⟨"timeout", .span (.ofMillis s.setup.drainTimeout)⟩]

/-- Writes an outcome to the log and counts it. -/
def recordOutcome (s : Service) (o : Shutdown.Outcome) : Service :=
  let component := Log.Field.text "component" o.component
  let logged := match o.fate with
    | .stopped => s.logged .info "Component stopped" [component]
    | .failed e => s.logged .error "Component shutdown failed" [component, .error e.message]
    | .timedOut =>
      s.logged .error "Component did not stop before shutdown deadline" [component]
  if s.setup.publishes then
    { logged with metrics := logged.metrics.countOutcome o.fate.kind.label }
  else logged

/-! ## 2. Calls -/

/-- How far a call to shut down has come: the moment at which it stops waiting, the teardowns whose
outcome is not there yet, and the outcomes that are there, in order. -/
structure Collection where
  deadline : Nat
  pending : List (String × JobId)
  outcomes : List Shutdown.Outcome
  deriving DecidableEq, Repr

/-- A call to shut down: it came too late, it collects outcomes, or it has its report. -/
inductive Call where
  | ignored
  | collecting (c : Collection)
  | finished (report : Shutdown.Report)
  deriving DecidableEq, Repr

/-- The fate of a teardown, if it is known: a result counts even at the deadline. -/
def fate? (s : Service) (deadline : Nat) (job : JobId) : Option Shutdown.Fate :=
  match s.result? job with
  | some r => some (.ofResult r.asStop)
  | none => if deadline ≤ s.now then some .timedOut else none

/-- Collects outcomes up to the first that is not there yet. -/
def collect (deadline : Nat) :
    List (String × JobId) → List Shutdown.Outcome → Service → Collection × Service
  | [], outcomes, s => (⟨deadline, [], outcomes⟩, s)
  | (name, job) :: rest, outcomes, s =>
    match s.fate? deadline job with
    | some fate => collect deadline rest (outcomes ++ [⟨name, fate⟩]) (s.recordOutcome ⟨name, fate⟩)
    | none => (⟨deadline, (name, job) :: rest, outcomes⟩, s)

namespace Call

/-- Looks at a call. With its last outcome the service is stopped. -/
def poll (c : Call) (s : Service) : Call × Service :=
  match c with
  | .collecting x =>
    let (x, s) := collect x.deadline x.pending x.outcomes s
    if x.pending = [] then (.finished ⟨x.outcomes⟩, { s with phase := .stopped })
    else (.collecting x, s)
  | c => (c, s)

/-- Whether a call has returned. -/
def hasReturned : Call → Bool
  | .collecting _ => false
  | _ => true

/-- The moment at which a call stops waiting. -/
def moment? : Call → Option Nat
  | .collecting x => some x.deadline
  | _ => none

/-- The report of a call that was not ignored. -/
def report? : Call → Option Shutdown.Report
  | .finished r => some r
  | _ => none

end Call

/-- Makes a call to shut down. -/
def startCall (s : Service) : Except Overflow Call × Service :=
  if s.phase = .running then
    let s := { s with phase := .draining }
    match deadline? s.now s.setup.drainTimeout with
    | none => (.error .deadline, s)
    | some deadline =>
      let s := s.withdraw.logWithdrawal
      let (pending, s) := startTeardowns deadline s.members s
      let (call, s) := (Call.collecting ⟨deadline, pending, []⟩).poll s
      (.ok call, s)
  else
    (.ok .ignored, s.logged .debug "Shutdown already triggered, ignoring duplicate trigger" [])

/-- Makes calls one after the other, up to the first that breaks off. -/
def startCalls : Nat → Service → Except Overflow (List Call) × Service
  | 0, s => (.ok [], s)
  | count + 1, s =>
    match s.startCall with
    | (.error e, s) => (.error e, s)
    | (.ok call, s) =>
      match startCalls count s with
      | (.error e, s) => (.error e, s)
      | (.ok calls, s) => (.ok (call :: calls), s)

/-- **A call to a service that is no longer running changes only the log.** -/
theorem startCall_ignored (s : Service) (h : s.phase ≠ .running) :
    s.startCall = (.ok .ignored,
      s.logged .debug "Shutdown already triggered, ignoring duplicate trigger" []) := by
  simp [startCall, h]

/-! ## 3. Probes during a shutdown -/

/-- What a readiness probe has seen, and its answer. -/
structure Sighting where
  moment : Nat
  phase : Phase
  flags : Health.Flags
  response : Probe.Response
  deriving DecidableEq, Repr

/-- A readiness probe for a moment, and what it has seen once the moment has come. -/
structure Lookout where
  moment : Nat
  seen : Option Sighting
  deriving DecidableEq, Repr

/-- Sends a probe whose moment has come. -/
def Lookout.poll (l : Lookout) (s : Service) : Lookout × Service :=
  match l.seen with
  | some _ => (l, s)
  | none =>
    if l.moment ≤ s.now then
      let (response, s') := s.readyz
      ({ l with seen := some ⟨s.now, s.phase, s.flags, response⟩ }, s')
    else (l, s)

/-- Sends the probes whose moments have come. -/
def pollLookouts : List Lookout → Service → List Lookout × Service
  | [], s => ([], s)
  | l :: rest, s =>
    let (l, s) := l.poll s
    let (rest, s) := pollLookouts rest s
    (l :: rest, s)

/-- Looks at calls one after the other. -/
def pollCalls : List Call → Service → List Call × Service
  | [], s => ([], s)
  | c :: rest, s =>
    let (c, s) := c.poll s
    let (rest, s) := pollCalls rest s
    (c :: rest, s)

/-- Calls to shut down, when all of them had returned, and the probes that are sent meanwhile. -/
structure Watch where
  calls : List Call
  returned : Option Nat
  lookouts : List Lookout
  deriving DecidableEq, Repr

/-- A waiter for calls and probes; the calls come first. -/
def draining : Waiter Watch where
  poll := fun w s =>
    let (calls, s) := pollCalls w.calls s
    let returned := w.returned.or (if calls.all (·.hasReturned) then some s.now else none)
    let (lookouts, s) := pollLookouts w.lookouts s
    (⟨calls, returned, lookouts⟩, s)
  isDone := fun w => w.returned.isSome && w.lookouts.all (·.seen.isSome)
  moments := fun w => w.calls.filterMap (·.moment?) ++ w.lookouts.map (·.moment)

/-- What calls to shut down have given: the report of every call that was not ignored, after how
long all of them had returned, and what the probes have seen. -/
structure Drained where
  reports : List (Option Shutdown.Report)
  duration : Nat
  sightings : List Sighting
  deriving DecidableEq, Repr

/-- Makes a number of calls at once, and sends probes at some times after that. -/
def drain (s : Service) (count : Nat) (probes : List Nat) : Except Overflow Drained × Service :=
  match startCalls count s with
  | (.error e, s') => (.error e, s')
  | (.ok calls, s') =>
    let lookouts := probes.map fun d => ⟨wakeTime s.now d, none⟩
    let (w, after) := await draining ⟨calls, none, lookouts⟩ s'
    (.ok ⟨w.calls.map (·.report?), w.returned.getD after.now - s.now,
      w.lookouts.filterMap (·.seen)⟩, after)

end ServiceHealth.Service
