import ServiceHealth.Text.Escapes

/-!
# Strings of JSON documents

A string stands between double quotes. The quote and the backslash are escaped by a backslash,
the control characters that have a short escape by it, every other control character by `\u` and
four hexadecimal digits; all other characters stand for themselves. The reader accepts every
string of the JSON grammar, also escapes that the writer never uses.

* `scan_undoes`: the reader undoes the short escapes.
-/

namespace ServiceHealth.Json.Text

/-! ## 1. Writing -/

/-- The characters with a short escape. The solidus may be escaped but never is. -/
def escapes : Text.Escapes where
  written := [('"', '"'), ('\\', '\\'), ('\x08', 'b'), ('\t', 't'), ('\n', 'n'), ('\x0c', 'f'),
    ('\r', 'r')]
  accepted := [('/', '/')]
  distinct := by decide
  complete := by simp

/-- A digit of a code unit, in lower case. -/
def hexDigit (n : Nat) : Char := Nat.digitChar (n % 16)

/-- Four hexadecimal digits. -/
def hex4 (n : Nat) : List Char :=
  [hexDigit (n / 4096), hexDigit (n / 256), hexDigit (n / 16), hexDigit n]

/-- A character that has no short escape, as it is written inside the quotes. -/
def unabridged (c : Char) : List Char :=
  if c.toNat < 0x20 then '\\' :: 'u' :: hex4 c.toNat else [c]

/-- A character as it is written inside the quotes. -/
def shown (c : Char) : List Char := escapes.write unabridged c

/-- A string in its quotes. -/
def encode (s : String) : List Char := '"' :: (s.toList.flatMap shown ++ ['"'])

/-! ## 2. Reading -/

/-- The value of a hexadecimal digit, in either case. -/
def hexValue? (c : Char) : Option Nat :=
  if '0' ≤ c ∧ c ≤ '9' then some (c.toNat - '0'.toNat)
  else if 'a' ≤ c ∧ c ≤ 'f' then some (c.toNat - 'a'.toNat + 10)
  else if 'A' ≤ c ∧ c ≤ 'F' then some (c.toNat - 'A'.toNat + 10)
  else none

/-- The value of a code unit written with four hexadecimal digits. -/
def unitValue? (a b c d : Char) : Option Nat :=
  match hexValue? a, hexValue? b, hexValue? c, hexValue? d with
  | some w, some x, some y, some z => some (4096 * w + 256 * x + 16 * y + z)
  | _, _, _, _ => none

/-- The character of a code unit that is no surrogate. -/
def ofUnit? (n : Nat) : Option Char :=
  if n < 0xD800 ∨ (0xDFFF < n ∧ n < 0x10000) then some (Char.ofNat n) else none

/-- The character of a high and a low surrogate. -/
def ofPair? (high low : Nat) : Option Char :=
  if 0xD800 ≤ high ∧ high < 0xDC00 ∧ 0xDC00 ≤ low ∧ low < 0xE000 then
    some (Char.ofNat (0x10000 + 0x400 * (high - 0xD800) + (low - 0xDC00)))
  else none

/-- Reads up to the closing quote and answers the characters and what follows the quote. -/
def scan : List Char → Option (List Char × List Char)
  | [] => none
  | '"' :: rest => some ([], rest)
  | '\\' :: 'u' :: a :: b :: c :: d :: '\\' :: 'u' :: e :: f :: g :: h :: rest =>
    match unitValue? a b c d, unitValue? e f g h with
    | some m, some n =>
      match ofPair? m n with
      | some x => (scan rest).map fun p => (x :: p.1, p.2)
      | none =>
        match ofUnit? m with
        | some x => (scan ('\\' :: 'u' :: e :: f :: g :: h :: rest)).map fun p => (x :: p.1, p.2)
        | none => none
    | _, _ => none
  | '\\' :: 'u' :: a :: b :: c :: d :: rest =>
    match (unitValue? a b c d).bind ofUnit? with
    | some x => (scan rest).map fun p => (x :: p.1, p.2)
    | none => none
  | '\\' :: letter :: rest =>
    match escapes.char? letter with
    | some x => (scan rest).map fun p => (x :: p.1, p.2)
    | none => none
  | x :: rest =>
    if x.toNat < 0x20 ∨ x = '\\' then none else (scan rest).map fun p => (x :: p.1, p.2)

/-- **The reader undoes the short escapes.** -/
theorem scan_undoes : escapes.Undoes (fun c => 0x20 ≤ c.toNat) scan where
  close _ := by rw [scan]
  short {c letter} h rest := by
    have code : escapes.char? 'u' = none := by decide
    have notCode : letter ≠ 'u' := fun e => by rw [e, code] at h; cases h
    rw [scan]
    · rw [h]
    · intro _ _ _ _ _ _ _ _ _ e
      exact absurd e notCode
    · intro _ _ _ _ _ e
      exact absurd e notCode
  plain quote backslash large rest := by
    rw [scan]
    · simp [backslash, Nat.not_lt.mpr large]
    all_goals simp_all

end ServiceHealth.Json.Text
