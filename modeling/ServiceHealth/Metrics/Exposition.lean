import ServiceHealth.Metrics.Basic
import ServiceHealth.Text.Escapes

/-!
# The exposition of metrics

Metrics are shown as text, family after family in the order of their names: a line of help, a line
with the kind, and a line per sample. A family of counters without samples is left out. In the
value of a label the backslash, the double quote and the line break are escaped by a backslash;
everything else stands for itself, so a sample never takes more than one line.

* `mem_escaped_ne`: no label has a line break in its text.
-/

namespace ServiceHealth.Exposition

/-! ## 1. Labels -/

/-- The characters that are escaped in a label. -/
def escapes : Text.Escapes where
  written := [('\\', '\\'), ('"', '"'), ('\n', 'n')]
  accepted := []
  distinct := by decide
  complete := by simp

/-- A character of a label as it is written. -/
def escaped (c : Char) : List Char := escapes.write ([·]) c

/-- The text of a label's value between its quotes. -/
def labelChars (s : String) : List Char := s.toList.flatMap escaped

/-- **No label has a line break in its text.** -/
theorem mem_escaped_ne {c d : Char} (h : d ∈ escaped c) : d ≠ '\n' := by
  rintro rfl
  have letters : ∀ e ∈ escapes.written, e.2 ≠ '\n' := by decide
  unfold escaped at h
  rcases escapes.write_cases ([·]) c with ⟨letter, short, e⟩ | ⟨plain, e⟩ <;> rw [e] at h
  · simp only [List.mem_cons, List.not_mem_nil, or_false] at h
    rcases h with e | rfl
    · exact absurd e (by decide)
    · exact letters _ (Text.Escapes.mem_of_letter? short) rfl
  · rw [← List.mem_singleton.mp h] at plain
    exact absurd plain (by decide)

/-! ## 2. Families -/

/-- The kind of a family: a gauge goes up and down, a counter only grows. -/
inductive Kind where
  | gauge
  | counter
  deriving DecidableEq, Repr

/-- The name of a kind. -/
def Kind.name : Kind → String
  | .gauge => "gauge"
  | .counter => "counter"

/-- The text of a value, with the name and the value of the label that tells it from the other
samples of its family, if there is one. -/
structure Sample where
  label : Option (String × String)
  value : String
  deriving DecidableEq, Repr

/-- Samples under one name, in the order of their labels. -/
structure Family where
  name : String
  help : String
  kind : Kind
  samples : List Sample
  deriving DecidableEq, Repr

/-- The label of a sample in braces. -/
def bracedLabel : Option (String × String) → List Char
  | none => []
  | some (key, value) =>
    '\x7b' :: (key.toList ++ '=' :: '"' :: (labelChars value ++ ['"', '\x7d']))

/-- The line of a sample. -/
def Sample.line (name : String) (s : Sample) : List Char :=
  name.toList ++ bracedLabel s.label ++ ' ' :: s.value.toList

/-- The lines of a family. -/
def Family.lines (f : Family) : List (List Char) :=
  ("# HELP ".toList ++ f.name.toList ++ ' ' :: f.help.toList)
    :: ("# TYPE ".toList ++ f.name.toList ++ ' ' :: f.kind.name.toList)
    :: f.samples.map (·.line f.name)

/-- The text of a list of families, a line break after every line. -/
def render (families : List Family) : String :=
  String.ofList ((families.flatMap Family.lines).flatMap (· ++ ['\n']))

/-! ## 3. The families of the service -/

/-- A gauge with one value. -/
def gauge (name help value : String) : Family := ⟨name, help, .gauge, [⟨none, value⟩]⟩

/-- A gauge that is zero or one. -/
def switch (name help : String) (on : Bool) : Family :=
  gauge name help (if on then "1" else "0")

/-- The text of a count, which is shown as a double-precision number. -/
def countText (n : Nat) : String := (Decimal.Binary64.ofNat n).text

/-- A family of counters, left out as long as nothing has been counted. -/
def counters (name help label : String) (t : Keyed Nat) : List Family :=
  if t.entries.isEmpty then []
  else [⟨name, help, .counter, t.entries.map fun e => ⟨some (label, e.1), countText e.2⟩⟩]

end ServiceHealth.Exposition

namespace ServiceHealth.Metrics

open Exposition

/-- The families of the metrics, in the order of their names. -/
def families (m : Metrics) : List Family :=
  gauge "tunnel_certificate_expiry_timestamp" "Certificate expiry as a unix timestamp"
      m.certificateExpiry.text
    :: (counters "tunnel_health_check_failures_total" "Total failed health checks by checker"
        "checker" m.failures
      ++ switch "tunnel_health_status" "Health status (1 = healthy, 0 = unhealthy)" m.healthy
      :: switch "tunnel_ready" "Readiness flag (1 = ready)" m.flags.ready
      :: (counters "tunnel_shutdown_outcomes_total" "Component shutdown outcomes by result"
          "outcome" m.outcomes
        ++ [switch "tunnel_shutting_down" "Shutdown flag (1 = draining or stopped)"
            m.flags.shuttingDown]))

/-- The exposition of the metrics. -/
def exposition (m : Metrics) : String := render m.families

end ServiceHealth.Metrics
