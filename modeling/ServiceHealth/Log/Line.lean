import ServiceHealth.Json.Document
import ServiceHealth.Log.Filter
import ServiceHealth.Time.Calendar

/-!
# Written records

A record is written as a line of text or as a JSON document. In both the rendered details are one
field among others, and a fatal record is an error with a mark.
-/

namespace ServiceHealth.Log

/-- The target of the records of the service. -/
def target : String := "tunnel_health::logging"

namespace Record

/-- A named part of a line, if it is there. -/
def part (name : String) : Option String → String
  | none => ""
  | some value => " " ++ name ++ "=" ++ value

/-- The line of a record, after its time. -/
def textLine (r : Record) : String :=
  r.level.label ++ " " ++ target ++ ": " ++ r.message
    ++ part "service" (some r.service) ++ part "environment" (some r.environment)
    ++ part "trace_id" (r.context.trace.map Text.quote)
    ++ part "span_id" (r.context.span.map Text.quote)
    ++ part "fields" (some r.fieldLine)
    ++ if r.isFatal then " fatal=true" else ""

/-- The members of a record's fields. -/
def members (r : Record) : List (String × Json) :=
  [("message", .text r.message), ("service", .text r.service),
    ("environment", .text r.environment)]
    ++ (r.context.trace.map fun t => ("trace_id", Json.text t)).toList
    ++ (r.context.span.map fun t => ("span_id", Json.text t)).toList
    ++ [("fields", .text r.fieldLine)]
    ++ if r.isFatal then [("fatal", .bool true)] else []

/-- The members of a record's document, after its time. -/
def documentMembers (r : Record) : List (String × Json) :=
  [("level", .text r.level.label), ("fields", .object r.members), ("target", .text target)]

/-- A record in a format, with the time at which it was written. -/
def stamped (r : Record) (time : Time.Stamp) : Format → String
  | .text => time.text ++ " " ++ r.textLine
  | .json => (Json.object (("timestamp", .text time.text) :: r.documentMembers)).render

end Record

end ServiceHealth.Log
