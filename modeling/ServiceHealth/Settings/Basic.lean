import ServiceHealth.Log.Level
import ServiceHealth.Net.Printer
import ServiceHealth.Text.Numeral
import ServiceHealth.Text.Quoted

/-!
# Settings

The settings of the service, the nine environment variables that they come from, and what can be
wrong with the text of a variable.
-/

namespace ServiceHealth

/-- An environment variable that the service reads. -/
inductive Variable where
  | endpoint
  | shutdownTimeout
  | checkTimeout
  | logLevel
  | logFormat
  | environment
  | service
  | certificate
  | minConnections
  deriving DecidableEq, Repr

namespace Variable

/-- The name of a variable in the environment. -/
def name : Variable → String
  | .endpoint => "TUNNEL_METRICS_ADDR"
  | .shutdownTimeout => "TUNNEL_SHUTDOWN_TIMEOUT_SECS"
  | .checkTimeout => "TUNNEL_CHECK_TIMEOUT_SECS"
  | .logLevel => "TUNNEL_LOG_LEVEL"
  | .logFormat => "TUNNEL_LOG_FORMAT"
  | .environment => "TUNNEL_ENVIRONMENT"
  | .service => "TUNNEL_SERVICE_NAME"
  | .certificate => "TUNNEL_CERT_FILE"
  | .minConnections => "TUNNEL_MIN_CONNECTIONS"

end Variable

/-- The settings of the service. The timeouts are in seconds, and the level is the name of the least
severity that is logged, as configured. -/
structure Settings where
  endpoint : Net.Endpoint
  shutdownTimeout : Nat
  checkTimeout : Nat
  level : String
  format : Log.Format
  service : String
  environment : String
  certificate : Option String
  minConnections : Nat
  deriving DecidableEq

namespace Settings

/-- What is wrong with the text of a variable: it is no socket address, no number of the right size,
the name of no log format, or a timeout of zero. -/
inductive Reason where
  | badAddress
  | badNumber (fault : Text.Numeral.Fault)
  | badFormat (name : String)
  | zeroTimeout
  deriving DecidableEq, Repr

/-- The wording of a reason. -/
def Reason.message : Reason → String
  | .badAddress => "invalid socket address syntax"
  | .badNumber fault => fault.message
  | .badFormat name => Log.Format.complaint name
  | .zeroTimeout => "timeout must be greater than zero"

/-- A variable that cannot be used, with the text that is complained about. -/
structure Fault where
  source : Variable
  value : String
  reason : Reason
  deriving DecidableEq, Repr

/-- The wording of a fault. -/
def Fault.message (f : Fault) : String :=
  "Invalid value " ++ Text.quote f.value ++ " for " ++ f.source.name ++ ": " ++ f.reason.message

/-- The settings without any variable. -/
def default : Settings where
  endpoint := .v4 ⟨0, 0, 0, 0⟩ 8080
  shutdownTimeout := 30
  checkTimeout := 5
  level := "info"
  format := .text
  service := "tunnel-server"
  environment := "development"
  certificate := none
  minConnections := 1

end Settings

end ServiceHealth
