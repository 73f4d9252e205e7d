import ServiceHealth.Text.Blank

/-!
# Severities and log formats

Records have one of five severities, in ascending order. A configured severity is read without
regard to surrounding blanks and to the case of ASCII letters; an unknown one counts as `info`,
and `fatal` cannot be configured. A log is written as text or as JSON.
-/

namespace ServiceHealth.Log

/-! ## 1. Severities -/

/-- The severity of a record, the least one first. After a fatal record the service cannot go on. -/
inductive Level where
  | debug
  | info
  | warn
  | error
  | fatal
  deriving DecidableEq, Repr

namespace Level

/-- The place in the order of severities. -/
def rank : Level → Nat
  | .debug => 0
  | .info => 1
  | .warn => 2
  | .error => 3
  | .fatal => 4

/-- Compares two severities. -/
def compare (a b : Level) : Ordering := Ord.compare a.rank b.rank

/-- The severity of a configured name. -/
def parse (name : String) : Level :=
  let name := (Text.trimChars name.toList).map Char.toLower
  if name = "debug".toList then .debug
  else if name = "info".toList then .info
  else if name = "warn".toList then .warn
  else if name = "error".toList then .error
  else .info

/-- The least severity that is let through, by its name. A fatal record is written as an error,
so there is no filter of its own. -/
def filter : Level → String
  | .debug => "debug"
  | .info => "info"
  | .warn => "warn"
  | .error => "error"
  | .fatal => "error"

/-- The severity under which a record is written. -/
def label : Level → String
  | .debug => "DEBUG"
  | .info => "INFO"
  | .warn => "WARN"
  | .error => "ERROR"
  | .fatal => "ERROR"

end Level

/-! ## 2. Formats -/

/-- How a log is written: a line of text or a JSON document per record. -/
inductive Format where
  | text
  | json
  deriving DecidableEq, Repr

namespace Format

/-- The name of a format. -/
def name : Format → String
  | .text => "text"
  | .json => "json"

/-- The format with a name; case and blanks count. -/
def ofName? (s : String) : Option Format :=
  if s = "text" then some .text else if s = "json" then some .json else none

/-- The complaint about a name that no format has. -/
def complaint (s : String) : String := "unknown log format \x27" ++ s ++ "\x27"

@[simp] theorem ofName?_name (f : Format) : ofName? f.name = some f := by cases f <;> decide

end Format

end ServiceHealth.Log
