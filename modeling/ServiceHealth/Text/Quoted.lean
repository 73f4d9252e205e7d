import ServiceHealth.Text.Printable
import ServiceHealth.Text.Combining
import ServiceHealth.Text.Escapes

/-!
# Quoted texts

A quoted text stands between double quotes. Six characters have a short escape, a backslash and
one letter; a character that is unprintable or extends the one before it is written by its code
point, `\u` and lower-case hexadecimal digits in braces; every other character stands for itself.
The reader undoes this, reading up to the closing quote.

* `scan_undoes`: the reader undoes the short escapes.
-/

namespace ServiceHealth.Text.Quoted

/-! ## 1. Writing -/

/-- The characters with a short escape. -/
def escapes : Escapes where
  written := [('\x00', '0'), ('\t', 't'), ('\r', 'r'), ('\n', 'n'), ('"', '"'), ('\\', '\\')]
  accepted := []
  distinct := by decide
  complete := by simp

/-- A character that stands for itself inside the quotes, if it has no short escape. -/
def standsAlone (c : Char) : Bool := isPrintable c && !isExtender c

/-- A character that has no short escape, as it is written inside the quotes. -/
def unabridged (c : Char) : List Char :=
  if standsAlone c then [c]
  else '\\' :: 'u' :: '\x7b' :: (Nat.toDigits 16 c.toNat ++ ['\x7d'])

/-- A character as it is written inside the quotes. -/
def written (c : Char) : List Char := escapes.write unabridged c

/-- The characters between the quotes. -/
def body (cs : List Char) : List Char := cs.flatMap written

/-- A text in double quotes. -/
def encode (cs : List Char) : List Char := '"' :: (body cs ++ ['"'])

/-! ## 2. Reading -/

/-- The value of a lower-case hexadecimal digit. -/
def hexValue? (c : Char) : Option Nat :=
  if '0' ≤ c ∧ c ≤ '9' then some (c.toNat - '0'.toNat)
  else if 'a' ≤ c ∧ c ≤ 'f' then some (c.toNat - 'a'.toNat + 10)
  else none

/-- The character with a code point, if there is one. -/
def charAt? (n : Nat) : Option Char := if n.isValidChar then some (Char.ofNat n) else none

/-- Where the reader of a quoted text stands: between characters, after a backslash, after the
letter of an escape by code point, or inside its braces, with the value so far and whether a digit
has been read. -/
inductive Mode where
  | plain
  | escape
  | opening
  | code (value : Nat) (seen : Bool)

/-- Reads up to the closing quote and answers the text and what follows the quote. -/
def scan : Mode → List Char → Option (List Char × List Char)
  | _, [] => none
  | .plain, c :: rest =>
    if c = '"' then some ([], rest)
    else if c = '\\' then scan .escape rest
    else (scan .plain rest).map fun p => (c :: p.1, p.2)
  | .escape, c :: rest =>
    if c = 'u' then scan .opening rest
    else match escapes.char? c with
      | some d => (scan .plain rest).map fun p => (d :: p.1, p.2)
      | none => none
  | .opening, c :: rest => if c = '\x7b' then scan (.code 0 false) rest else none
  | .code value seen, c :: rest =>
    if c = '\x7d' then
      if seen then
        match charAt? value with
        | some d => (scan .plain rest).map fun p => (d :: p.1, p.2)
        | none => none
      else none
    else match hexValue? c with
      | some digit => scan (.code (16 * value + digit) true) rest
      | none => none

/-- **The reader undoes the short escapes.** -/
theorem scan_undoes : escapes.Undoes (fun _ => True) (scan .plain) where
  close _ := by simp [scan]
  short {c letter} h rest := by
    have code : escapes.char? 'u' = none := by decide
    have notCode : letter ≠ 'u' := fun e => by rw [e, code] at h; cases h
    simp [scan, notCode, h]
  plain quote backslash _ rest := by simp [scan, quote, backslash]

end ServiceHealth.Text.Quoted

namespace ServiceHealth.Text

/-- A text in double quotes, with its escapes. -/
def quote (s : String) : String := String.ofList (Quoted.encode s.toList)

theorem toList_quote (s : String) : (quote s).toList = Quoted.encode s.toList := by simp [quote]

end ServiceHealth.Text
