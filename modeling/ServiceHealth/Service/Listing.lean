import ServiceHealth.Log.Reader
import ServiceHealth.Metrics.Reader
import ServiceHealth.Service.State

/-!
# Reading the description of a registry

The description of a registry is read from left to right: the names of the checkers, each up to its
closing quote, and then the two flags by their words. The fuel of the names is the length of the
text, as every name has a quote of its own.
-/

namespace ServiceHealth.Service

/-- What the description of a registry says: the names of the checkers, in their order, and the
flags. -/
structure Listing where
  names : List String
  flags : Health.Flags
  deriving DecidableEq, Repr

namespace Listing

/-- The names up to the end of a list, the first one without its opening quote. -/
def quotedNames? : Nat → List Char → Option (List String × List Char)
  | 0, _ => none
  | fuel + 1, cs =>
    match Text.Quoted.scan .plain cs with
    | some (name, ',' :: ' ' :: '"' :: rest) =>
      (quotedNames? fuel rest).map fun p => (String.ofList name :: p.1, p.2)
    | some (name, ']' :: rest) => some ([String.ofList name], rest)
    | _ => none

/-- The names of a list whose bracket has been read. -/
def names? : List Char → Option (List String × List Char)
  | ']' :: rest => some ([], rest)
  | '"' :: rest => quotedNames? rest.length rest
  | _ => none

/-- The truth value before a character, and what follows that. -/
def flag? (stop : Char) (cs : List Char) : Option (Bool × List Char) :=
  match cs.dropWhile (· != stop) with
  | [] => none
  | _ :: rest => (Log.truth? (cs.takeWhile (· != stop))).map fun b => (b, rest)

/-- What a description says. -/
def read? (s : String) : Option Listing := do
  let cs ← Exposition.dropStart? "HealthRegistry \x7b checkers: [".toList s.toList
  let (names, cs) ← names? cs
  let cs ← Exposition.dropStart? ", ready: ".toList cs
  let (ready, cs) ← flag? ',' cs
  let cs ← Exposition.dropStart? " shutting_down: ".toList cs
  let (shuttingDown, cs) ← flag? ' ' cs
  if cs = ['\x7d'] then pure ⟨names, ready, shuttingDown⟩ else none

end Listing

end ServiceHealth.Service
