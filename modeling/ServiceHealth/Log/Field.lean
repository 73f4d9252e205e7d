import ServiceHealth.Decimal.Positional
import ServiceHealth.Text.Quoted
import ServiceHealth.Time.Span

/-!
# Fields of a record

A field is a value of some type under a key. Fields are rendered in the order in which they were
given, as a key, an equals sign and a value, with a space between two fields; a text is quoted,
every other value stands bare.

* `lineChars_cons`: how one more field at the front changes the line.
-/

namespace ServiceHealth.Log

/-- The value of a field. -/
inductive Value where
  | text (s : String)
  | int (n : Int)
  | nat (n : Nat)
  | float (x : Decimal.Binary64)
  | bool (b : Bool)
  | span (d : Time.Span)
  deriving DecidableEq, Repr

/-- A value under a key. -/
structure Field where
  key : String
  value : Value
  deriving DecidableEq, Repr

/-- The decimal digits of a signed number. -/
def intChars (n : Int) : List Char :=
  Decimal.sign (n < 0) ++ Nat.toDigits 10 n.natAbs

/-- The characters of a truth value. -/
def boolChars (b : Bool) : List Char :=
  if b then ['t', 'r', 'u', 'e'] else ['f', 'a', 'l', 's', 'e']

namespace Value

/-- The characters of a value. -/
def chars : Value → List Char
  | .text s => Text.Quoted.encode s.toList
  | .int n => intChars n
  | .nat n => Nat.toDigits 10 n
  | .float x => x.reading.text
  | .bool b => boolChars b
  | .span d => d.chars

end Value

namespace Field

/-- A field with a text. -/
def text (key value : String) : Field := ⟨key, .text value⟩

/-- The conventional field of an error. -/
def error (message : String) : Field := ⟨"error", .text message⟩

/-- The characters of a field. -/
def chars (f : Field) : List Char := f.key.toList ++ '=' :: f.value.chars

end Field

/-- The characters of a list of fields. -/
def lineChars : List Field → List Char
  | [] => []
  | [f] => f.chars
  | f :: g :: rest => f.chars ++ ' ' :: lineChars (g :: rest)

/-- The text of a list of fields. -/
def line (fields : List Field) : String := String.ofList (lineChars fields)

/-- **How one more field at the front changes the line.** -/
theorem lineChars_cons (f : Field) (rest : List Field) :
    lineChars (f :: rest) = f.chars ++ if rest = [] then [] else ' ' :: lineChars rest := by
  cases rest <;> simp [lineChars]

end ServiceHealth.Log
