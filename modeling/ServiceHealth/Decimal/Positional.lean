import ServiceHealth.Decimal.Shortest

/-!
# Positional notation

A decimal is written without an exponent, however large or small it is: the digits, zeros as far
as the point needs them, and a point only where there is a fraction. A double-precision number is
written by its shortest decimal; zero keeps its sign, and the values that are no numbers have
names.
-/

namespace ServiceHealth.Decimal

/-- Decimal digits, padded with zeros on the left to a width. -/
def padded (width n : Nat) : List Char :=
  let digits := Nat.toDigits 10 n
  List.replicate (width - digits.length) '0' ++ digits

/-- The decimal `digits · 10 ^ power` in positional notation. -/
def Scaled.text (x : Scaled) : List Char :=
  let places := (-x.power).toNat
  if places = 0 then Nat.toDigits 10 (x.digits * Nat.pow 10 x.power.toNat)
  else
    Nat.toDigits 10 (x.digits / Nat.pow 10 places)
      ++ '.' :: padded places (x.digits % Nat.pow 10 places)

/-- The sign of a negative number. -/
def sign (negative : Bool) : List Char := if negative then ['-'] else []

/-- The names of the values that are no numbers, and the notation of all others. -/
def Reading.text : Reading → List Char
  | .nan => ['N', 'a', 'N']
  | .infinite negative => sign negative ++ ['i', 'n', 'f']
  | .zero negative => sign negative ++ ['0']
  | .finite negative value => sign negative ++ value.text

/-- The text of a double-precision number. -/
def Binary64.text (x : Binary64) : String := String.ofList x.reading.text

theorem Scaled.text_whole (n power : Nat) :
    (Scaled.mk n power).text = Nat.toDigits 10 (n * Nat.pow 10 power) := by
  have h : (-(power : Int)).toNat = 0 := by omega
  simp [Scaled.text, h]

end ServiceHealth.Decimal
