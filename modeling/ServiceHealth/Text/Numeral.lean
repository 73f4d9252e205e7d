/-!
# Decimal numerals

A natural number is written with the fewest digits. The reader accepts more: an optional plus
sign and any number of leading zeros, for a value below a limit. It works from left to right and
reports the first thing that is wrong, a character that is no digit before a value that has
grown too large.

* `scan_cons`: what one more character does.
-/

namespace ServiceHealth.Text.Numeral

/-- Why a text is not a number: there is nothing to read, a character is no digit (or there is a
sign and nothing else), or the value does not fit. -/
inductive Fault where
  | empty
  | badDigit
  | tooLarge
  deriving DecidableEq, Repr

/-- The wording of a fault. -/
def Fault.message : Fault → String
  | .empty => "cannot parse integer from empty string"
  | .badDigit => "invalid digit found in string"
  | .tooLarge => "number too large to fit in target type"

/-- The value of a decimal digit. -/
def digitValue? (c : Char) : Option Nat :=
  if c.isDigit then some (c.toNat - '0'.toNat) else none

/-- Reads the remaining digits after those that make up `value`; the result is below `limit`. -/
def scan (limit value : Nat) : List Char → Except Fault Nat
  | [] => .ok value
  | c :: rest =>
    match digitValue? c with
    | none => .error .badDigit
    | some d =>
      if 10 * value + d < limit then scan limit (10 * value + d) rest else .error .tooLarge

/-- Reads a number below `limit`, with an optional plus sign. -/
def read (limit : Nat) : List Char → Except Fault Nat
  | [] => .error .empty
  | ['+'] => .error .badDigit
  | '+' :: rest => scan limit 0 rest
  | digits => scan limit 0 digits

/-- One past the largest 64-bit number. -/
def limit64 : Nat := Nat.pow 2 64

/-- The number of a text, if the text is a number below `limit`. -/
def read? (limit : Nat) (s : String) : Option Nat := (read limit s.toList).toOption

/-- **What one more character does.** -/
theorem scan_cons (limit value : Nat) (c : Char) (rest : List Char) :
    scan limit value (c :: rest) =
      match digitValue? c with
      | none => .error .badDigit
      | some d =>
        if 10 * value + d < limit then scan limit (10 * value + d) rest else .error .tooLarge :=
  rfl

end ServiceHealth.Text.Numeral
