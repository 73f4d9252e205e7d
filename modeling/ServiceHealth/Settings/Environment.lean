import ServiceHealth.Net.Reader
import ServiceHealth.Settings.Basic

/-!
# Settings from an environment

Five variables have a grammar; they are read without surrounding blanks, one after the other, and
the first that cannot be used ends the reading. The fault quotes the text as it was found; for a
timeout of zero, however it was spelled, it quotes the digit. The other variables are taken as
they stand, and an empty certificate path counts as none.

The way back is an environment that spells given settings.

* `readVariable_none`, `readVariable_some`: an absent variable takes its default, a present one
  is read without its blanks.
* `ofLookup_congr`: nothing but the nine variables counts.
-/

namespace ServiceHealth.Settings

/-- What an environment has under a name. -/
abbrev Lookup := String → Option String

/-! ## 1. One variable -/

/-- The value of a variable with a grammar, or its default. -/
def readVariable {α : Type} (lookup : Lookup) (v : Variable) (default : α)
    (grammar : List Char → Except Reason α) : Except Fault α :=
  match lookup v.name with
  | none => .ok default
  | some value =>
    match grammar (Text.trimChars value.toList) with
    | .ok a => .ok a
    | .error reason => .error ⟨v, value, reason⟩

/-- A socket address. -/
def endpointGrammar (cs : List Char) : Except Reason Net.Endpoint :=
  match Net.endpoint? cs with
  | some e => .ok e
  | none => .error .badAddress

/-- A number of at most 64 bits. -/
def numberGrammar (cs : List Char) : Except Reason Nat :=
  match Text.Numeral.read Text.Numeral.limit64 cs with
  | .ok n => .ok n
  | .error fault => .error (.badNumber fault)

/-- The name of a log format. -/
def formatGrammar (cs : List Char) : Except Reason Log.Format :=
  match Log.Format.ofName? (String.ofList cs) with
  | some f => .ok f
  | none => .error (.badFormat (String.ofList cs))

/-- A timeout in seconds, which must not be zero. -/
def readTimeout (lookup : Lookup) (v : Variable) (default : Nat) : Except Fault Nat :=
  match readVariable lookup v default numberGrammar with
  | .error fault => .error fault
  | .ok 0 => .error ⟨v, "0", .zeroTimeout⟩
  | .ok (seconds + 1) => .ok (seconds + 1)

/-- **An absent variable takes its default.** -/
theorem readVariable_none {α : Type} {lookup : Lookup} {v : Variable} (h : lookup v.name = none)
    (default : α) (grammar : List Char → Except Reason α) :
    readVariable lookup v default grammar = .ok default := by simp [readVariable, h]

/-- **A present variable is read without its blanks.** -/
theorem readVariable_some {α : Type} {lookup : Lookup} {v : Variable} {value : String}
    (h : lookup v.name = some value) (default : α) (grammar : List Char → Except Reason α) :
    readVariable lookup v default grammar =
      match grammar (Text.trimChars value.toList) with
      | .ok a => .ok a
      | .error reason => .error ⟨v, value, reason⟩ := by simp [readVariable, h]

/-! ## 2. All variables -/

/-- The settings that an environment gives. -/
def ofLookup (lookup : Lookup) : Except Fault Settings := do
  let endpoint ← readVariable lookup .endpoint default.endpoint endpointGrammar
  let shutdownTimeout ← readTimeout lookup .shutdownTimeout default.shutdownTimeout
  let checkTimeout ← readTimeout lookup .checkTimeout default.checkTimeout
  let format ← readVariable lookup .logFormat default.format formatGrammar
  let minConnections ← readVariable lookup .minConnections default.minConnections numberGrammar
  pure {
    endpoint, shutdownTimeout, checkTimeout, format, minConnections
    level := (lookup Variable.logLevel.name).getD default.level
    service := (lookup Variable.service.name).getD default.service
    environment := (lookup Variable.environment.name).getD default.environment
    certificate := (lookup Variable.certificate.name).filter (· ≠ "") }

/-- **Nothing but the nine variables counts.** -/
theorem ofLookup_congr {lookup other : Lookup}
    (h : ∀ v : Variable, lookup v.name = other v.name) : ofLookup lookup = ofLookup other := by
  simp only [ofLookup, readTimeout, readVariable, h]

/-! ## 3. The way back -/

/-- The text of each variable that spells the settings; a missing certificate has none. -/
def spelling (s : Settings) : Variable → Option String
  | .endpoint => some s.endpoint.text
  | .shutdownTimeout => some (toString s.shutdownTimeout)
  | .checkTimeout => some (toString s.checkTimeout)
  | .logLevel => some s.level
  | .logFormat => some s.format.name
  | .environment => some s.environment
  | .service => some s.service
  | .certificate => s.certificate
  | .minConnections => some (toString s.minConnections)

/-- All variables. -/
def allVariables : List Variable :=
  [.endpoint, .shutdownTimeout, .checkTimeout, .logLevel, .logFormat, .environment, .service,
    .certificate, .minConnections]

/-- An environment that gives the settings. -/
def printed (s : Settings) : Lookup := fun name =>
  (allVariables.find? fun v => v.name = name).bind s.spelling

theorem printed_name (s : Settings) (v : Variable) : s.printed v.name = s.spelling v := by
  cases v <;> rfl

end ServiceHealth.Settings
