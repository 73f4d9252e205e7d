import ServiceHealth.Service.Drain
import ServiceHealth.Service.Stops

/-!
# Serving over a network

Requests reach a service over a network, each on a connection of its own. Where connections are
refused no request reaches the service, and nothing changes. An endpoint that is in use cannot be
served.
-/

namespace ServiceHealth.Service

/-- What becomes of connections to a service. -/
inductive Network where
  | accepting
  | refusing
  deriving DecidableEq, Repr

/-- What a client gets: an answer, no connection, or one that breaks off without an answer. -/
inductive Exchange where
  | answered (r : Probe.Response)
  | refused
  | broken
  deriving DecidableEq, Repr

/-- What a client gets, in words. -/
def Exchange.text : Exchange → String
  | .answered r => r.text
  | .refused => "refused"
  | .broken => "broken"

/-- Why an endpoint cannot be served: something else is served there. -/
inductive BindError where
  | inUse
  deriving DecidableEq, Repr

/-- The wording of a failure to serve an endpoint. -/
def BindError.message : BindError → String
  | .inUse => "Address already in use (os error 98)"

/-- Sends a request. -/
def exchange (network : Network) (s : Service) (r : Probe.Request) : Exchange × Service :=
  match network with
  | .refusing => (.refused, s)
  | .accepting =>
    match s.respond r with
    | (.ok x, s) => (.answered x, s)
    | (.error _, s) => (.broken, s)

/-- Sends requests one after the other. -/
def exchanges (network : Network) : List Probe.Request → Service → List Exchange × Service
  | [], s => ([], s)
  | r :: rest, s =>
    let (x, s) := exchange network s r
    let (xs, s) := exchanges network rest s
    (x :: xs, s)

/-- What clients get from a service that is served and then stopped: the answers to requests sent
one after the other, to one that is under way when serving is stopped, and to one after that. -/
structure Served where
  responses : List Exchange
  underWay : Option Exchange
  afterwards : Exchange
  deriving DecidableEq, Repr

/-- Serves a service and stops serving it. A request that is under way is answered; nothing is
accepted afterwards. -/
def serve (network : Network) (s : Service) (requests : List Probe.Request)
    (underWay : Option Probe.Request) : Served × Service :=
  let (responses, s) := exchanges network requests s
  match underWay with
  | none => (⟨responses, none, .refused⟩, s)
  | some r =>
    let (x, s) := exchange network s r
    (⟨responses, some x, .refused⟩, s)

end ServiceHealth.Service
