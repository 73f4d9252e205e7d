import ServiceHealth.Log.Reader
import ServiceHealth.Time.Calendar

/-!
# Reading a stamp

The text of a stamp ends with sixteen characters of which each has its place: month and day, the
time of day and the letter for universal time, every number with two digits. What stands before
them is the year, with a sign or without one.
-/

namespace ServiceHealth.Time

/-- The year that digits with an optional sign are. -/
def year? : List Char → Option Int
  | '+' :: rest => (Log.natural? rest).map fun n : Nat => (n : Int)
  | cs => Log.integer? cs

namespace Fields

/-- The number of characters after the year. -/
def tailLength : Nat := 16

/-- The calendar fields with a text. -/
def read? (s : String) : Option Fields :=
  let start := s.toList.length - tailLength
  match s.toList.drop start with
  | ['-', m, m', '-', d, d', 'T', h, h', ':', n, n', ':', x, x', 'Z'] => do
    let year ← year? (s.toList.take start)
    let month ← Log.natural? [m, m']
    let day ← Log.natural? [d, d']
    let hour ← Log.natural? [h, h']
    let minute ← Log.natural? [n, n']
    let second ← Log.natural? [x, x']
    pure ⟨⟨year, month, day⟩, hour, minute, second⟩
  | _ => none

end Fields

end ServiceHealth.Time
