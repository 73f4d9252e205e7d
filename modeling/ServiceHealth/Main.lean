import Std.Time.DateTime.Timestamp
import ServiceHealth.Lifecycle

/-!
# The program

Reads its settings from the environment and its requests from standard input, one in a line, a
method and a path. Records and answers go to standard output. The end of the input takes the
place of the signal to terminate.
-/

namespace ServiceHealth.Main

/-- The current time of day. -/
def currentTime : IO Time.Stamp := do
  let t ← Std.Time.Timestamp.now
  pure ⟨t.toSecondsSinceUnixEpoch.val, 0⟩

/-- The variables of the environment that the program reads. -/
def environment : IO Settings.Lookup := do
  let names := Lifecycle.filterVariable :: Settings.allVariables.map (·.name)
  let values ← names.mapM fun name => do
    pure (name, ← IO.getEnv name)
  pure fun name => (values.lookup name).join

/-- Writes the records that the filter lets through. -/
def write (lookup : Settings.Lookup) (settings : Settings) (records : List Log.Record) :
    IO Unit := do
  let time ← currentTime
  for r in Lifecycle.admitted lookup settings records do
    IO.println (r.stamped time settings.format)

/-- Answers requests until the input ends. -/
partial def answer (input : IO.FS.Stream) (s : Service) : IO Service := do
  let line ← input.getLine
  if line.isEmpty then pure s
  else
    match Probe.Request.ofLine? line with
    | none => answer input s
    | some request =>
      let (reply, s) := Service.exchange .accepting { s with clock := ← currentTime } request
      IO.println reply.text
      answer input s

/-- A life of the program with readable settings. -/
def serve (lookup : Settings.Lookup) (settings : Settings) : IO UInt32 := do
  let s := Lifecycle.readyService settings (← currentTime)
  write lookup settings [Lifecycle.announcement settings, Lifecycle.readiness settings s]
  let s ← answer (← IO.getStdin) s
  let (ending, records) := Lifecycle.shutdown settings s .terminate
  write lookup settings records
  IO.eprint ending.complaint
  pure ending.code

end ServiceHealth.Main

/-- Runs the program. -/
def main : IO UInt32 := do
  let lookup ← ServiceHealth.Main.environment
  match ServiceHealth.Settings.ofLookup lookup with
  | .ok settings => ServiceHealth.Main.serve lookup settings
  | .error fault =>
    IO.eprint (ServiceHealth.Lifecycle.unreadable fault)
    pure 1
