import ServiceHealth.Service.Drain
import ServiceHealth.Service.Stops

/-!
# Commands

A service is driven by commands, each of which has an answer. A run is a list of commands carried
out in order.
-/

namespace ServiceHealth.Service

/-- What a service is told to do. Times are in milliseconds. The checkers that every service has are
registered with what they are to look at, `events` asks for what has been noted since the last time,
and `checkMany`, `stopTask` and `drain` make a number of calls at once, the last one with probes
meanwhile. -/
inductive Command where
  | setReady (value : Bool)
  | setShuttingDown (value : Bool)
  | state
  | registerChecker (c : Health.Checker)
  | registerBuiltin (certificate : Option String) (minConnections : Nat)
  | names
  | describe
  | check (timeout : Nat)
  | checkMany (count timeout : Nat)
  | request (r : Probe.Request)
  | setTime (t : Time.Stamp)
  | setCertificateExpiry (x : Decimal.Binary64)
  | sleep (duration : Nat)
  | events
  | registerComponent (c : Shutdown.Component)
  | registerTask (t : Shutdown.Task)
  | isFinished (name : String)
  | stopTask (task count : Nat) (giveUp : Option Nat)
  | drain (count : Nat) (probes : List Nat)

/-- What a service answers. After calls to shut down it tells what they have given, how things
stand, and what was logged. -/
inductive Answer where
  | flags (f : Health.Flags)
  | standing (f : Health.Flags) (phase : Phase)
  | names (names : List String)
  | builtin (names : List String) (certificate : Option String) (minConnections : Nat)
  | text (s : String)
  | report (r : Health.Report)
  | reports (rs : List Health.Report)
  | response (r : Probe.Response)
  | done
  | events (es : List Event)
  | finished (b : Option Bool)
  | stopped (answers : List (Option StopAnswer))
  | drained (d : Drained) (f : Health.Flags) (phase : Phase) (log : List Log.Record)
  | overflow (e : Overflow)

/-- The name of a component. -/
def memberName (s : Service) : Member → String
  | .component c => c.name
  | .task task =>
    match s.tasks[task]? with
    | some t => t.name
    | none => ""

/-- The names of the components, in the order of registration. -/
def memberNames (s : Service) : List String := s.members.map s.memberName

/-- The last task with a name. -/
def taskNamed? (s : Service) (name : String) : Option Nat :=
  ((List.range s.tasks.length).reverse).find? fun i =>
    match s.tasks[i]? with
    | some t => t.name = name
    | none => false

/-- Whether an event is listed before another: by its moment, then by name, then by text. -/
def Event.isBefore (a b : Event) : Bool :=
  if a.moment ≠ b.moment then a.moment < b.moment
  else if a.who ≠ b.who then decide (Text.Before a.who b.who)
  else decide (Text.Before a.what b.what)

/-- Puts an event in its place among events in order. -/
def placeEvent (e : Event) : List Event → List Event
  | [] => [e]
  | x :: rest => if x.isBefore e then x :: placeEvent e rest else e :: x :: rest

/-- Events in the order in which they are listed. -/
def listed (es : List Event) : List Event := es.foldr placeEvent []

/-- Carries out a command. -/
def perform (s : Service) : Command → Answer × Service
  | .setReady value =>
    let s := s.performAction (.setReady value)
    (.flags s.flags, s)
  | .setShuttingDown value =>
    let s := s.performAction (.setShuttingDown value)
    (.flags s.flags, s)
  | .state => (.standing s.flags s.phase, s)
  | .registerChecker c =>
    let s := s.register c
    (.names s.checkerNames, s)
  | .registerBuiltin certificate minConnections =>
    let s := (s.register .certificate).register .connections
    (.builtin s.checkerNames certificate minConnections, s)
  | .names => (.names s.checkerNames, s)
  | .describe => (.text s.describe, s)
  | .check timeout =>
    match s.check timeout with
    | (.ok r, s) => (.report r, s)
    | (.error e, s) => (.overflow e, s)
  | .checkMany count timeout =>
    match s.checkMany count timeout with
    | (.ok rs, s) => (.reports rs, s)
    | (.error e, s) => (.overflow e, s)
  | .request r =>
    match s.respond r with
    | (.ok x, s) => (.response x, s)
    | (.error e, s) => (.overflow e, s)
  | .setTime t => (.done, { s with clock := t })
  | .setCertificateExpiry x => (.done, { s with metrics := s.metrics.setCertificateExpiry x })
  | .sleep duration => (.done, s.sleep duration)
  | .events => (.events (listed (s.events.drop s.reported)), { s with reported := s.events.length })
  | .registerComponent c =>
    let s := { s with members := s.members ++ [.component c] }
    (.names s.memberNames, s)
  | .registerTask t =>
    let (task, s) := s.startTask t
    let s := { s with members := s.members ++ [.task task] }
    (.names s.memberNames, s)
  | .isFinished name => (.finished ((s.taskNamed? name).map s.isFinished), s)
  | .stopTask task count giveUp =>
    let (answers, s) := s.stopTask task count giveUp
    (.stopped answers, s)
  | .drain count probes =>
    match s.drain count probes with
    | (.ok d, s') => (.drained d s'.flags s'.phase (s'.log.drop s.log.length), s')
    | (.error e, s') => (.overflow e, s')

/-- An answer, and how long the command took. -/
structure Reply where
  answer : Answer
  duration : Nat

/-- Carries out a command and measures it. -/
def step (s : Service) (c : Command) : Reply × Service :=
  let (answer, s') := s.perform c
  (⟨answer, s'.now - s.now⟩, s')

/-- Carries out commands in order. -/
def run : List Command → Service → List Reply × Service
  | [], s => ([], s)
  | c :: rest, s =>
    let (reply, s) := s.step c
    let (replies, s) := run rest s
    (reply :: replies, s)

end ServiceHealth.Service
