import ServiceHealth.Probe.Response
import ServiceHealth.Text.Blank

/-!
# Routes

Three paths lead somewhere; they match exactly, without regard to a query. A route is open to
GET and, for the same answer without its body, to HEAD. Any other method is refused on a path
that leads somewhere, and any other path leads nowhere, whatever the method.

* `target_cases`: the three things a request can ask for.
* `withBody?_of_target`: whoever asks for a route says whether the answer is to have a body.
-/

namespace ServiceHealth.Probe

/-- What a path leads to: liveness, readiness, or the exposition of the metrics. -/
inductive Route where
  | healthz
  | readyz
  | metrics
  deriving DecidableEq, Repr

/-- The path of a route. -/
def Route.path : Route → String
  | .healthz => "/healthz"
  | .readyz => "/readyz"
  | .metrics => "/metrics"

/-- A request. The path has its query with it. -/
structure Request where
  method : String
  path : String
  deriving DecidableEq, Repr

namespace Request

/-- The request in a line, a method and a path with a space between them. -/
def ofLine? (line : String) : Option Request :=
  let cs := Text.trimChars line.toList
  match cs.dropWhile (· != ' ') with
  | [] => none
  | _ :: path => some ⟨String.ofList (cs.takeWhile (· != ' ')), String.ofList path⟩

/-- The path without its query. -/
def plainPath (r : Request) : List Char := r.path.toList.takeWhile fun c => c != '?' && c != '#'

/-- The route that the path leads to. -/
def route? (r : Request) : Option Route :=
  [Route.healthz, Route.readyz, Route.metrics].find? fun x => x.path.toList = r.plainPath

/-- Whether the answer has a body, if the method is allowed. -/
def withBody? (r : Request) : Option Bool :=
  if r.method = "GET" then some true else if r.method = "HEAD" then some false else none

end Request

/-- What a request asks for: a route, with or without the body of the answer, a route by a method
that is not allowed, or a path that leads nowhere. -/
inductive Target where
  | route (route : Route) (withBody : Bool)
  | refused
  | nowhere
  deriving DecidableEq, Repr

/-- What a request asks for. -/
def Request.target (r : Request) : Target :=
  match r.route?, r.withBody? with
  | none, _ => .nowhere
  | some _, none => .refused
  | some route, some withBody => .route route withBody

/-- The answer to a request for nothing. -/
def missing : Response := ⟨notFound, none, none, ""⟩

/-- The answer to a method that is not allowed. -/
def forbidden : Response := ⟨methodNotAllowed, none, some "GET,HEAD", ""⟩

/-- An answer as it is sent, with or without its body. -/
def Response.sent (r : Response) (withBody : Bool) : Response :=
  if withBody then r else r.withoutBody

/-- **The three things a request can ask for.** -/
theorem target_cases (r : Request) :
    (r.route? = none ∧ r.target = .nowhere) ∨
    (∃ x, r.route? = some x ∧ r.withBody? = none ∧ r.target = .refused) ∨
    (∃ x b, r.route? = some x ∧ r.withBody? = some b ∧ r.target = .route x b) := by
  unfold Request.target
  cases h : r.route? with
  | none => exact .inl ⟨rfl, rfl⟩
  | some x =>
    cases k : r.withBody? with
    | none => exact .inr (.inl ⟨x, rfl, rfl, rfl⟩)
    | some b => exact .inr (.inr ⟨x, b, rfl, rfl, rfl⟩)

/-- **A route is asked for with or without the body of the answer.** -/
theorem withBody?_of_target {r : Request} {x : Route} {withBody : Bool}
    (h : r.target = .route x withBody) : r.withBody? = some withBody := by
  rcases target_cases r with ⟨-, k⟩ | ⟨_, -, -, k⟩ | ⟨_, b, -, body, k⟩ <;> rw [h] at k <;> cases k
  exact body

end ServiceHealth.Probe
