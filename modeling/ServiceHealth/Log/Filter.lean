import ServiceHealth.Log.Logger
import ServiceHealth.Text.Numeral

/-!
# Filters

A filter is a list of directives with commas between them; empty ones are skipped. A directive
sets a threshold for the records of a target and of everything below it, or for all records if
it names none:

* a threshold alone, by its name in any case or by its number from zero to five;
* a target alone, which lets everything through;
* a target, an equals sign and a threshold, or nothing, which again lets everything through;
* either of the last two with a part in brackets before the equals sign. The name of a span in
  it, or a field with a value, restricts the directive to a context that no record of the
  service is in; field names alone restrict it to records that have these fields.

Of the directives that apply to a record the one with the longest target decides, then the one
with more field names, then the last. If none applies the record is dropped.
-/

namespace ServiceHealth.Log

/-! ## 1. Thresholds -/

/-- How severe a record has to be. Nothing passes `off`, everything passes `trace`. -/
inductive Threshold where
  | off
  | error
  | warn
  | info
  | debug
  | trace
  deriving DecidableEq, Repr

namespace Threshold

/-- The thresholds with their names, by number. -/
def named : List (String × Threshold) :=
  [("off", .off), ("error", .error), ("warn", .warn), ("info", .info), ("debug", .debug),
    ("trace", .trace)]

/-- The threshold with a name or a number. -/
def parse? (cs : List Char) : Option Threshold :=
  match Text.Numeral.read Text.Numeral.limit64 cs with
  | .ok n => (named[n]?).map (·.2)
  | .error _ => (named.find? fun p => p.1.toList = cs.map Char.toLower).map (·.2)

/-- Whether a record of a severity passes. -/
def admits : Threshold → Level → Bool
  | .off, _ => false
  | .error, level => level == .error || level == .fatal
  | .warn, level => level != .debug && level != .info
  | .info, level => level != .debug
  | .debug, _ => true
  | .trace, _ => true

/-- The threshold of a configured severity. -/
def ofLevel : Level → Threshold
  | .debug => .debug
  | .info => .info
  | .warn => .warn
  | .error => .error
  | .fatal => .error

end Threshold

/-! ## 2. Directives -/

/-- A threshold and what it is for: a target, or every target, and the fields that a record must
have. A contextual directive is for a context that no record of the service is in. -/
structure Directive where
  target : Option String
  fields : List String
  contextual : Bool
  threshold : Threshold
  deriving DecidableEq, Repr

namespace Directive

/-- A character that a target may start with. -/
def startsTarget (c : Char) : Bool :=
  c.isAlphanum || 0x80 ≤ c.toNat || c == '-' || c == ':' || c == '_'

/-- The threshold after an equals sign; nothing means everything passes. -/
def thresholdAfter? (cs : List Char) : Option Threshold :=
  if cs = [] then some .trace else Threshold.parse? cs

/-- The end of a directive after its part in brackets. -/
def ending? (target : Option String) (fields : List String) (contextual : Bool) :
    List Char → Option Directive
  | [] => some ⟨target, fields, contextual, .trace⟩
  | '=' :: rest => (thresholdAfter? rest).map (⟨target, fields, contextual, ·⟩)
  | _ => none

/-- A field name before the equals sign that starts its value, if there is one. -/
def fieldName (cs : List Char) : String := String.ofList (cs.takeWhile (· != '='))

/-- The part in brackets, after the opening one, and the end of the directive. -/
def brackets? (target : Option String) (cs : List Char) : Option Directive :=
  let name := cs.takeWhile fun c => c != ']' && c != '\x7b'
  match cs.dropWhile fun c => c != ']' && c != '\x7b' with
  | ']' :: rest => ending? target [] true rest
  | '\x7b' :: rest =>
    let parts := (rest.takeWhile (· != '\x7d')).splitOn ','
    match rest.dropWhile (· != '\x7d') with
    | '\x7d' :: ']' :: rest' =>
      if parts.any (·.isEmpty) then none
      else
        ending? target (parts.map fieldName)
          (!name.isEmpty || parts.any (·.contains '=')) rest'
    | _ => none
  | _ => none

/-- The directive that a text is, if it is one. -/
def parse? (cs : List Char) : Option Directive :=
  match cs with
  | [] => none
  | '[' :: rest => brackets? none rest
  | c :: _ =>
    if startsTarget c then
      let name := cs.takeWhile fun c => c != '=' && c != '['
      match cs.dropWhile fun c => c != '=' && c != '[' with
      | [] =>
        match Threshold.parse? name with
        | some threshold => some ⟨none, [], false, threshold⟩
        | none => some ⟨some (String.ofList name), [], false, .trace⟩
      | '=' :: rest =>
        (thresholdAfter? rest).map (⟨some (String.ofList name), [], false, ·⟩)
      | _ :: rest => brackets? (some (String.ofList name)) rest
    else none

/-- The names of the fields that a record is written with. -/
def writtenFields (r : Record) : List String :=
  ["message", "service", "environment", "trace_id", "span_id", "fields"]
    ++ if r.isFatal then ["fatal"] else []

/-- Whether a directive is for the records of a target. -/
def applies (d : Directive) (target : String) (r : Record) : Bool :=
  !d.contextual && d.target.all (fun t => t.toList.isPrefixOf target.toList)
    && d.fields.all (writtenFields r).contains

/-- How closely a directive says what it is for. -/
def weight (d : Directive) : Nat × Nat :=
  ((d.target.map fun t => t.utf8ByteSize + 1).getD 0, d.fields.length)

/-- Whether a directive says at least as closely what it is for as another one. -/
def overrides (d e : Directive) : Bool :=
  e.weight.1 < d.weight.1 || (e.weight.1 == d.weight.1 && e.weight.2 ≤ d.weight.2)

end Directive

/-! ## 3. Filters -/

/-- Which records are written: the directives, in the order in which they were given. -/
structure Filter where
  directives : List Directive
  deriving DecidableEq, Repr

namespace Filter

/-- The filter that a text is, if all its directives are well formed. -/
def parse? (s : String) : Option Filter :=
  (((s.toList.splitOn ',').filter (!·.isEmpty)).mapM
    fun cs => Directive.parse? (Text.trimChars cs)).map Filter.mk

/-- The filter of a configured severity. -/
def ofLevel (level : Level) : Filter := ⟨[⟨none, [], false, .ofLevel level⟩]⟩

/-- The filter of an environment: one of its own goes before the configured severity. -/
def choose (own : Option String) (level : String) : Filter :=
  (own.bind parse?).getD (ofLevel (Level.parse level))

/-- The directive that decides about a record. -/
def deciding? (f : Filter) (target : String) (r : Record) : Option Directive :=
  (f.directives.filter (·.applies target r)).foldl
    (fun best d => match best with
      | none => some d
      | some e => if d.overrides e then some d else some e) none

/-- Whether a record of a target is written. -/
def admits (f : Filter) (target : String) (r : Record) : Bool :=
  match f.deciding? target r with
  | some d => d.threshold.admits r.level
  | none => false

end Filter

end ServiceHealth.Log
