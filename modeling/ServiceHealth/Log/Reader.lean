import ServiceHealth.Log.Field

/-!
# Reading a line of fields

A line of fields is read from left to right: a key up to the first equals sign, then a quoted
text, or else the characters up to the next space; a space and another field may follow. What a
bare value means is decided by its characters: a number, a truth value or a span of time.

* `Shown.meaning`, `Value.meaning`: what a value says, as it is read and as it was.
-/

namespace ServiceHealth.Log

/-! ## 1. Fields -/

/-- A value as it stands in a line: a quoted text, without its escapes, or the characters of any
other value. -/
inductive Shown where
  | quoted (s : String)
  | bare (cs : List Char)
  deriving DecidableEq, Repr

/-- How a value stands in a line. -/
def Shown.ofValue : Value → Shown
  | .text s => .quoted s
  | v => .bare v.chars

/-- The value at the start of a line, and what follows it. -/
def shown? : List Char → Option (Shown × List Char)
  | '"' :: rest => (Text.Quoted.scan .plain rest).map fun p => (.quoted (String.ofList p.1), p.2)
  | cs => some (.bare (cs.takeWhile (· != ' ')), cs.dropWhile (· != ' '))

/-- The fields of a line that is not empty, with their keys. -/
def fields? : Nat → List Char → Option (List (String × Shown))
  | 0, _ => none
  | fuel + 1, cs =>
    match cs.dropWhile (· != '=') with
    | [] => none
    | _ :: value =>
      match shown? value with
      | none => none
      | some (v, []) => some [(String.ofList (cs.takeWhile (· != '=')), v)]
      | some (v, ' ' :: more) =>
        (fields? fuel more).map ((String.ofList (cs.takeWhile (· != '=')), v) :: ·)
      | some (_, _ :: _) => none

/-- The fields of a line. Every field has an equals sign, so the length is fuel enough. -/
def readLine? (s : String) : Option (List (String × Shown)) :=
  if s.toList = [] then some [] else fields? s.toList.length s.toList

/-! ## 2. Bare values -/

/-- The number that a run of decimal digits is. -/
def natural? (cs : List Char) : Option Nat :=
  if cs ≠ [] ∧ cs.all Char.isDigit then some (Nat.ofDigitChars 10 cs 0) else none

/-- The number that digits with an optional minus sign are. -/
def integer? : List Char → Option Int
  | '-' :: rest => (natural? rest).map fun n => -(n : Int)
  | cs => (natural? cs).map fun n => (n : Int)

/-- The truth value with a name. -/
def truth? (cs : List Char) : Option Bool :=
  if cs = boolChars true then some true else if cs = boolChars false then some false else none

/-- The number of places of a unit's symbol. -/
def unitPlaces? (cs : List Char) : Option Nat :=
  ((Time.Span.scales ++ [Time.Span.nanosecond]).find? fun s => s.symbol = cs).map (·.places)

/-- The span of time with a text: digits, perhaps a point and more digits, and a unit. -/
def span? (cs : List Char) : Option Time.Span := do
  let whole ← natural? (cs.takeWhile Char.isDigit)
  match cs.dropWhile Char.isDigit with
  | '.' :: rest =>
    let part := rest.takeWhile Char.isDigit
    let places ← unitPlaces? (rest.dropWhile Char.isDigit)
    let n ← natural? part
    if part.length ≤ places then
      pure ⟨whole * Nat.pow 10 places + n * Nat.pow 10 (places - part.length)⟩
    else none
  | symbol =>
    let places ← unitPlaces? symbol
    pure ⟨whole * Nat.pow 10 places⟩

/-! ## 3. What a value says -/

/-- What a value says. A number says the same whether its type has a sign or not; what is neither
text nor number, truth value or length of time is kept by its characters. -/
inductive Meaning where
  | text (s : String)
  | number (n : Int)
  | truth (b : Bool)
  | span (d : Time.Span)
  | other (cs : List Char)
  deriving DecidableEq, Repr

/-- What the characters of a bare value say. -/
def bareMeaning (cs : List Char) : Meaning :=
  match integer? cs, truth? cs, span? cs with
  | some n, _, _ => .number n
  | none, some b, _ => .truth b
  | none, none, some d => .span d
  | none, none, none => .other cs

/-- What a value that was read says. -/
def Shown.meaning : Shown → Meaning
  | .quoted s => .text s
  | .bare cs => bareMeaning cs

/-- What a value says. A double-precision number says what its printed text does. -/
def Value.meaning : Value → Meaning
  | .text s => .text s
  | .int n => .number n
  | .nat n => .number n
  | .float x => bareMeaning x.reading.text
  | .bool b => .truth b
  | .span d => .span d

end ServiceHealth.Log
