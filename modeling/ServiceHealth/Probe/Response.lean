import ServiceHealth.Health.Report

/-!
# Answers to probes

A liveness probe is answered with the whole report, a readiness probe with a word. Shutting down
makes both unavailable, whatever else holds; readiness does not look at any check.

* `liveness_status`: when a liveness probe is answered with success.
-/

namespace ServiceHealth.Probe

/-- An answer to a request: the status code, the type of the body, the methods that are allowed, and
the body. -/
structure Response where
  status : Nat
  contentType : Option String
  allow : Option String
  body : String
  deriving DecidableEq, Repr

/-- The code for success. -/
def ok : Nat := 200

/-- The code for a path that leads nowhere. -/
def notFound : Nat := 404

/-- The code for a method that is not allowed. -/
def methodNotAllowed : Nat := 405

/-- The code for a service that is not available. -/
def unavailable : Nat := 503

/-- The answer to a liveness probe. -/
def liveness (report : Health.Report) (shuttingDown : Bool) : Response where
  status := if !report.isHealthy || shuttingDown then unavailable else ok
  contentType := some "application/json"
  allow := none
  body := report.text

/-- The word for a state of readiness. -/
def readinessWord (flags : Health.Flags) : String :=
  if flags.shuttingDown then "shutting down"
  else if flags.ready then "ready"
  else "not ready"

/-- The answer to a readiness probe. -/
def readiness (flags : Health.Flags) : Response where
  status := if flags.ready && !flags.shuttingDown then ok else unavailable
  contentType := some "text/plain; charset=utf-8"
  allow := none
  body := readinessWord flags

/-- The answer with the exposition of the metrics. -/
def exposed (text : String) : Response :=
  ⟨ok, some "text/plain; version=0.0.4; charset=utf-8", none, text⟩

/-- A header with its value, if it is there. -/
def headerLine (name : String) : Option String → String
  | none => ""
  | some value => name ++ ": " ++ value ++ "\n"

/-- The text of an answer: the status code, the headers, an empty line and the body. -/
def Response.text (r : Response) : String :=
  toString r.status ++ "\n" ++ headerLine "content-type" r.contentType
    ++ headerLine "allow" r.allow ++ "\n" ++ r.body

/-- An answer without a body. -/
def Response.withoutBody (r : Response) : Response := { r with body := "" }

/-- **When a liveness probe is answered with success.** -/
theorem liveness_status (report : Health.Report) (shuttingDown : Bool) :
    (liveness report shuttingDown).status = 200 ↔
      report.isHealthy = true ∧ shuttingDown = false := by
  cases h : report.isHealthy <;> cases shuttingDown <;> simp [liveness, ok, unavailable, h]

end ServiceHealth.Probe
