import ServiceHealth.Json.Document
import ServiceHealth.Keyed
import ServiceHealth.Time.Calendar

/-!
# Health reports

A check of one part of the service ends well or with an error. A report gathers the results of
all checks under their names, with the time and the two flags of the service at the moment the
checks were asked for; the service is healthy if every result kept is. Of two results with one
name the later is kept.

* `isHealthy_iff`: healthy means that no check has failed.
* `failing_ascending`: the failed checks are listed in order, none twice.
-/

namespace ServiceHealth.Health

/-! ## 1. Results -/

/-- How a check fails: the part is not healthy, for a reason, there was no answer in time, or the
check itself broke down. -/
inductive CheckError where
  | unhealthy (reason : String)
  | timedOut
  | panicked
  deriving DecidableEq, Repr

/-- The wording of an error; a reason is given as it is. -/
def CheckError.message : CheckError → String
  | .unhealthy reason => reason
  | .timedOut => "check timed out"
  | .panicked => "check panicked"

/-- How a check ends. -/
inductive Outcome where
  | passed
  | failed (error : CheckError)
  deriving DecidableEq, Repr

/-- The result of one check, as a report has it, with what was wrong. -/
structure CheckResult where
  name : String
  healthy : Bool
  error : Option String
  deriving DecidableEq, Repr

/-- The word for a state of health. -/
def statusWord (healthy : Bool) : String := if healthy then "healthy" else "unhealthy"

namespace CheckResult

/-- The result of a check that has ended. -/
def ofOutcome (name : String) : Outcome → CheckResult
  | .passed => ⟨name, true, none⟩
  | .failed e => ⟨name, false, some e.message⟩

/-- The document of a result; its name is its key in the report. -/
def document (r : CheckResult) : Json :=
  .object (("status", .text (statusWord r.healthy))
    :: (r.error.map fun e => ("error", Json.text e)).toList)

@[simp] theorem name_ofOutcome (name : String) (o : Outcome) :
    (ofOutcome name o).name = name := by cases o <;> rfl

/-- **An error stands exactly with what has failed.** -/
theorem error_ofOutcome (name : String) (o : Outcome) :
    (ofOutcome name o).error.isSome = !(ofOutcome name o).healthy := by cases o <;> rfl

end CheckResult

/-! ## 2. Flags -/

/-- The two flags of the service: whether it wants traffic, and whether it is shutting down. -/
structure Flags where
  ready : Bool
  shuttingDown : Bool
  deriving DecidableEq, Repr, Inhabited

/-- The flags in words. -/
def Flags.text (f : Flags) : String :=
  "ready=" ++ toString f.ready ++ " shutting_down=" ++ toString f.shuttingDown

/-! ## 3. Reports -/

/-- The health of the service at one moment: the time and the flags when the checks were asked for,
and the results, by name. -/
structure Report where
  time : Time.Stamp
  flags : Flags
  checks : Keyed CheckResult
  deriving DecidableEq

namespace Report

/-- The report of a list of results. -/
def ofResults (time : Time.Stamp) (flags : Flags) (results : List CheckResult) : Report :=
  ⟨time, flags, Keyed.ofList (results.map fun r => (r.name, r))⟩

/-- Whether no result is bad. -/
def isHealthy (r : Report) : Bool := r.checks.values.all (·.healthy)

/-- The entries of the checks that have failed. -/
def failures (r : Report) : List (String × CheckResult) :=
  r.checks.entries.filter fun e => !e.2.healthy

/-- The names of the checks that have failed. -/
def failing (r : Report) : List String := r.failures.map (·.1)

/-- The document of a report. -/
def document (r : Report) : Json :=
  .object [("status", .text (statusWord r.isHealthy)), ("timestamp", .text r.time.text),
    ("ready", .bool r.flags.ready), ("shutting_down", .bool r.flags.shuttingDown),
    ("checks", .object (r.checks.entries.map fun e => (e.1, e.2.document)))]

/-- The text of a report. -/
def text (r : Report) : String := r.document.render

/-- **Healthy means that no check has failed.** -/
theorem isHealthy_iff (r : Report) : r.isHealthy = true ↔ r.failing = [] := by
  simp [isHealthy, failing, failures, Keyed.values, List.filter_eq_nil_iff]

/-- **The failed checks are listed in order, none twice.** -/
theorem failing_ascending (r : Report) : r.failing.Pairwise Text.Before :=
  List.Pairwise.sublist (List.filter_sublist.map _) r.checks.ascending

end Report

end ServiceHealth.Health
