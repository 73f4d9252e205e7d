import ServiceHealth.Log.Line
import ServiceHealth.Service.Server
import ServiceHealth.Settings.Environment

/-!
# The life of the program

The program reads its settings, announces its endpoint, binds it, gets ready, answers requests
until it is told to stop, and shuts down. It ends well if the shutdown was clean. Everything it
has to say goes to its log, in the configured format and as far as the filter lets it through.
-/

namespace ServiceHealth.Lifecycle

/-! ## 1. What the program meets -/

/-- What tells the program to stop. -/
inductive Signal where
  | terminate
  | interrupt
  deriving DecidableEq, Repr

/-- The name of a signal. -/
def Signal.name : Signal → String
  | .terminate => "SIGTERM"
  | .interrupt => "SIGINT"

/-- The environment variable with a filter for the log. -/
def filterVariable : String := "RUST_LOG"

/-- How the program ends: well, or with a failure or a panic, in words. -/
inductive Ending where
  | well
  | failure (complaint : String)
  | panic (message : String)
  deriving DecidableEq, Repr

/-- What the program complains about when it ends. -/
def Ending.complaint : Ending → String
  | .well => ""
  | .failure complaint => complaint
  | .panic message => message ++ "\n"

/-- The exit code. -/
def Ending.code : Ending → UInt32
  | .well => 0
  | .failure _ => 1
  | .panic _ => 101

/-- What is seen of a life of the program: how it ended, the answers to the requests, and the
records that were written, with their format. -/
structure Life where
  ending : Ending
  responses : List Service.Exchange
  log : List Log.Record
  format : Log.Format

/-- The complaint about settings that cannot be read, each of its lines set in. -/
def unreadable (f : Settings.Fault) : String :=
  "Error: Failed to load configuration\n\nCaused by:\n    "
    ++ String.intercalate "\n    " (f.message.splitOn "\n") ++ "\n"

/-! ## 2. The stages -/

/-- The logger of the program. -/
def logger (settings : Settings) : Log.Logger := .new settings.service settings.environment

/-- The records that the filter lets through. -/
def admitted (lookup : Settings.Lookup) (settings : Settings) (records : List Log.Record) :
    List Log.Record :=
  records.filter ((Log.Filter.choose (lookup filterVariable) settings.level).admits Log.target)

/-- The announcement of the endpoint. -/
def announcement (settings : Settings) : Log.Record :=
  (logger settings).record .info "Starting tunnel health server"
    [.text "address" settings.endpoint.text,
      ⟨"shutdown_timeout", .span (.ofSeconds settings.shutdownTimeout)⟩]

/-- The task that serves the endpoint until its signal is fired. -/
def serving : Shutdown.Task := ⟨"http", true, none, .returns .ok⟩

/-- The service when it is ready. -/
def readyService (settings : Settings) (clock : Time.Stamp) : Service :=
  let setup : Service.Setup :=
    { checkTimeout := settings.checkTimeout * 1000
      drainTimeout := settings.shutdownTimeout * 1000
      publishes := true
      logger := logger settings }
  let s := ((Service.new setup clock).register .certificate).register .connections
  let (task, s) := s.startTask serving
  ({ s with members := [.task task] }).performAction (.setReady true)

/-- The record that the service is ready. -/
def readiness (settings : Settings) (s : Service) : Log.Record :=
  (logger settings).record .info "Ready to receive traffic"
    [.text "checkers" (String.intercalate "," s.checkerNames)]

/-- The failure to bind the endpoint. -/
def bindFailure (settings : Settings) (e : Service.BindError) : Log.Record × Log.Failure :=
  (logger settings).fatal "Failed to bind health server"
    [.text "address" settings.endpoint.text, .error e.message]

/-- The shutdown of the service: how it ends and what it logs. -/
def shutdown (settings : Settings) (s : Service) (signal : Signal) :
    Ending × List Log.Record :=
  let told := (logger settings).record .info
    "Shutdown signal received, initiating graceful shutdown" [.text "signal" signal.name]
  match s.drain 1 [] with
  | (.error e, s) => (.panic e.message, told :: s.log)
  | (.ok d, s) =>
    match ((d.reports.head?.join).getD .empty).verdict with
    | .ok () =>
      (.well, told :: s.log ++ [(logger settings).record .info "Graceful shutdown completed" []])
    | .error e =>
      (.failure ("Error: " ++ e.message ++ "\n"),
        told :: s.log ++ [(logger settings).record .error "Graceful shutdown incomplete"
          [.error e.message]])

/-! ## 3. A life -/

/-- A life with readable settings. -/
def lifeOf (settings : Settings) (clock : Time.Stamp) (bind : Except Service.BindError Unit)
    (network : Service.Network) (requests : List Probe.Request) (signal : Signal) : Life :=
  match bind with
  | .error e =>
    let (record, failure) := bindFailure settings e
    ⟨.failure ("Error: " ++ failure.text ++ "\n"), [], [announcement settings, record],
      settings.format⟩
  | .ok () =>
    let s := readyService settings clock
    let (responses, s') := Service.exchanges network requests s
    let (ending, records) := shutdown settings s' signal
    ⟨ending, responses, announcement settings :: readiness settings s :: records,
      settings.format⟩

/-- A life of the program: its log holds what the filter lets through. -/
def live (lookup : Settings.Lookup) (clock : Time.Stamp) (bind : Except Service.BindError Unit)
    (network : Service.Network) (requests : List Probe.Request) (signal : Signal) : Life :=
  match Settings.ofLookup lookup with
  | .error f => ⟨.failure (unreadable f), [], [], .text⟩
  | .ok settings =>
    let life := lifeOf settings clock bind network requests signal
    { life with log := admitted lookup settings life.log }

end ServiceHealth.Lifecycle
