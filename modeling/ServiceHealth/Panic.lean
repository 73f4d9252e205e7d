import ServiceHealth.Text.Quoted

/-!
# Panics

A job that panics leaves a payload behind, a text or something else. Whoever waits for the job
learns of it in words; the number of the job is not part of them.
-/

namespace ServiceHealth

/-- What a panic leaves behind: a text, or anything else. -/
inductive Payload where
  | text (s : String)
  | other
  deriving DecidableEq, Repr

/-- How whoever waits for a job learns of its panic. -/
def Payload.report : Payload → String
  | .text s => "task # panicked with message " ++ Text.quote s
  | .other => "task # panicked"

end ServiceHealth
