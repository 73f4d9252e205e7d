import ServiceHealth.Log.Field
import ServiceHealth.Log.Level

/-!
# Loggers and records

A logger stamps every record with the service, the environment and the identifiers of the
request it works for. Nothing is written by a logger itself: recording an event gives a record,
and a fatal event also the failure that its owner ends with.
-/

namespace ServiceHealth.Log

/-- The identifiers of a request: its trace, and the span within the trace. -/
structure Context where
  trace : Option String
  span : Option String
  deriving DecidableEq, Repr, Inhabited

/-- A source of records, with the request that is worked for. -/
structure Logger where
  service : String
  environment : String
  context : Context
  deriving DecidableEq, Repr

/-- A recorded event, with its details in order and the request that was worked for. -/
structure Record where
  level : Level
  message : String
  service : String
  environment : String
  fields : List Field
  context : Context
  deriving DecidableEq, Repr

/-- The failure that follows a fatal event. -/
structure Failure where
  message : String
  deriving DecidableEq, Repr

/-- The wording of a failure. -/
def Failure.text (f : Failure) : String := "fatal: " ++ f.message

namespace Record

/-- Whether the event is fatal. -/
def isFatal (r : Record) : Bool := r.level == .fatal

/-- The rendered details. -/
def fieldLine (r : Record) : String := line r.fields

end Record

namespace Logger

/-- A logger without a request. -/
def new (service environment : String) : Logger := ⟨service, environment, ⟨none, none⟩⟩

/-- The same logger for another request. -/
def withContext (l : Logger) (context : Context) : Logger := { l with context }

/-- The record of an event. -/
def record (l : Logger) (level : Level) (message : String) (fields : List Field) : Record :=
  { level, message, fields
    service := l.service
    environment := l.environment
    context := l.context }

/-- The record of a fatal event, and the failure that follows it. -/
def fatal (l : Logger) (message : String) (fields : List Field) : Record × Failure :=
  (l.record .fatal message fields, ⟨message⟩)

end Logger

end ServiceHealth.Log
