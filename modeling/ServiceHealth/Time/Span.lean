import ServiceHealth.Decimal.Positional

/-!
# Spans of time

A span is a whole number of nanoseconds. Its text uses the largest of the units second,
millisecond, microsecond and nanosecond that the span fills at least once, with a fraction of as
many places as it needs.
-/

namespace ServiceHealth.Time

/-- A length of time, in nanoseconds. -/
structure Span where
  nanos : Nat
  deriving DecidableEq, Repr, Inhabited

namespace Span

/-- A number of seconds. -/
def ofSeconds (n : Nat) : Span := ⟨n * Nat.pow 10 9⟩

/-- A number of milliseconds. -/
def ofMillis (n : Nat) : Span := ⟨n * Nat.pow 10 6⟩

/-- A number of seconds and one of nanoseconds. -/
def ofParts (seconds nanos : Nat) : Span := ⟨seconds * Nat.pow 10 9 + nanos⟩

/-- A unit of time, ten to the power of `places` nanoseconds, and its symbol. -/
structure Scale where
  places : Nat
  symbol : List Char
  deriving DecidableEq, Repr

/-- The units, the largest first. -/
def scales : List Scale :=
  [⟨9, ['s']⟩, ⟨6, ['m', 's']⟩, ⟨3, ['µ', 's']⟩]

/-- The unit of the shortest spans. -/
def nanosecond : Scale := ⟨0, ['n', 's']⟩

/-- The largest unit that the span fills at least once. -/
def scale (d : Span) : Scale :=
  (scales.find? fun s => Nat.pow 10 s.places ≤ d.nanos).getD nanosecond

/-- The places after the point, without zeros at the end. -/
def fraction (places n : Nat) : List Char :=
  ((Decimal.padded places n).reverse.dropWhile (· == '0')).reverse

/-- The number of whole units, the fraction if there is one, and the symbol. -/
def chars (d : Span) : List Char :=
  let s := d.scale
  let whole := Nat.toDigits 10 (d.nanos / Nat.pow 10 s.places)
  let part := d.nanos % Nat.pow 10 s.places
  if part = 0 then whole ++ s.symbol
  else whole ++ '.' :: (fraction s.places part ++ s.symbol)

/-- The text of a span. -/
def text (d : Span) : String := String.ofList d.chars

end Span

end ServiceHealth.Time
