import ServiceHealth.Net.Address

/-!
# Reading a socket address

An address and a port are read from the start of a text; nothing may follow. Octets are decimal,
at most three digits, without a leading zero; groups are hexadecimal, at most four digits; ports
and scopes are decimal with any number of leading zeros. In a version 6 address `::` stands for
one or more groups of zeros, and a version 4 address may stand in place of the last two groups.

* `endpoint?_rest`: an address is the whole text.
-/

namespace ServiceHealth.Net

/-! ## 1. Numbers -/

/-- The value of a digit in a base of at most sixteen. -/
def digitValue? (base : Nat) (c : Char) : Option Nat :=
  let value :=
    if '0' ≤ c ∧ c ≤ '9' then c.toNat - '0'.toNat
    else if 'a' ≤ c ∧ c ≤ 'f' then c.toNat - 'a'.toNat + 10
    else if 'A' ≤ c ∧ c ≤ 'F' then c.toNat - 'A'.toNat + 10
    else 16
  if value < base then some value else none

/-- Whether a character is a digit in a base. -/
def isDigit (base : Nat) (c : Char) : Bool := (digitValue? base c).isSome

/-- The value of a list of digits. -/
def valueOf (base : Nat) (digits : List Char) : Nat :=
  digits.foldl (fun n c => base * n + (digitValue? base c).getD 0) 0

/-- What a kind of number may look like: its base, the greatest number of digits, if there is one,
whether a number of several digits may start with a zero, and one past the greatest value. -/
structure Shape where
  base : Nat
  width : Option Nat
  zeroFirst : Bool
  limit : Nat

/-- An octet of a version 4 address. -/
def octetShape : Shape := ⟨10, some 3, false, Nat.pow 2 8⟩

/-- A group of a version 6 address. -/
def groupShape : Shape := ⟨16, some 4, true, Nat.pow 2 16⟩

/-- A port. -/
def portShape : Shape := ⟨10, none, true, Nat.pow 2 16⟩

/-- A scope. -/
def scopeShape : Shape := ⟨10, none, true, Nat.pow 2 32⟩

/-- Whether a run of digits is a number of a shape. -/
def Shape.admits (s : Shape) (digits : List Char) : Bool :=
  !digits.isEmpty && s.width.all (digits.length ≤ ·)
    && (s.zeroFirst || digits.length ≤ 1 || digits.head? != some '0')
    && valueOf s.base digits < s.limit

/-- The number at the start, all its digits, and what follows it. -/
def number? (s : Shape) (cs : List Char) : Option (Nat × List Char) :=
  let digits := cs.takeWhile (isDigit s.base)
  if s.admits digits then some (valueOf s.base digits, cs.dropWhile (isDigit s.base)) else none

/-- What follows a given character at the start. -/
def after? (c : Char) : List Char → Option (List Char)
  | [] => none
  | x :: rest => if x = c then some rest else none

/-! ## 2. Addresses -/

/-- The version 4 address at the start, and what follows it. -/
def v4? (cs : List Char) : Option (V4 × List Char) := do
  let (a, cs) ← number? octetShape cs
  let cs ← after? '.' cs
  let (b, cs) ← number? octetShape cs
  let cs ← after? '.' cs
  let (c, cs) ← number? octetShape cs
  let cs ← after? '.' cs
  let (d, cs) ← number? octetShape cs
  pure (⟨UInt8.ofNat a, UInt8.ofNat b, UInt8.ofNat c, UInt8.ofNat d⟩, cs)

/-- What follows the colon before a group; the first group has none. -/
def separated? (first : Bool) (cs : List Char) : Option (List Char) :=
  if first then some cs else after? ':' cs

/-- The groups at the start of a text, whether the last two come from a version 4 address, and what
follows them. -/
structure Groups where
  groups : List UInt16
  embedded : Bool
  rest : List Char

/-- As many groups as there are, with colons between them, at most `room`. A version 4 address
fills two places and ends the list. -/
def groups (room : Nat) (first : Bool) (cs : List Char) : Groups :=
  match room with
  | 0 => ⟨[], false, cs⟩
  | room + 1 =>
    match if 0 < room then (separated? first cs).bind v4? else none with
    | some (v, rest) => ⟨[v.high, v.low], true, rest⟩
    | none =>
      match (separated? first cs).bind (number? groupShape) with
      | some (g, rest) =>
        let more := groups room false rest
        ⟨UInt16.ofNat g :: more.groups, more.embedded, more.rest⟩
      | none => ⟨[], false, cs⟩

/-- The version 6 address at the start, and what follows it. -/
def v6? (cs : List Char) : Option (V6 × List Char) :=
  let head := groups 8 true cs
  if head.groups.length = 8 then (V6.ofGroups? head.groups).map (·, head.rest)
  else if head.embedded then none
  else do
    let cs ← after? ':' head.rest
    let cs ← after? ':' cs
    let tail := groups (7 - head.groups.length) true cs
    let gap := 8 - head.groups.length - tail.groups.length
    let v ← V6.ofGroups? (head.groups ++ List.replicate gap 0 ++ tail.groups)
    pure (v, tail.rest)

/-! ## 3. Socket addresses -/

/-- The port after a colon, and what follows it. -/
def port? (cs : List Char) : Option (UInt16 × List Char) := do
  let cs ← after? ':' cs
  let (n, cs) ← number? portShape cs
  pure (UInt16.ofNat n, cs)

/-- The scope after a percent sign, zero if there is none, and what follows it. -/
def scope (cs : List Char) : UInt32 × List Char :=
  match (after? '%' cs).bind (number? scopeShape) with
  | some (n, rest) => (UInt32.ofNat n, rest)
  | none => (0, cs)

/-- The version 4 socket address at the start, and what follows it. -/
def endpoint4? (cs : List Char) : Option (Endpoint × List Char) := do
  let (address, cs) ← v4? cs
  let (port, cs) ← port? cs
  pure (.v4 address port, cs)

/-- The version 6 socket address at the start, and what follows it. -/
def endpoint6? (cs : List Char) : Option (Endpoint × List Char) := do
  let cs ← after? '[' cs
  let (address, cs) ← v6? cs
  let (scope, cs) := scope cs
  let cs ← after? ']' cs
  let (port, cs) ← port? cs
  pure (.v6 address scope port, cs)

/-- The socket address that a text is, if it is one. -/
def endpoint? (cs : List Char) : Option Endpoint :=
  match (endpoint4? cs).or (endpoint6? cs) with
  | some (e, []) => some e
  | _ => none

/-- **An address is the whole text.** -/
theorem endpoint?_rest {cs : List Char} {e : Endpoint} (h : endpoint? cs = some e) :
    (endpoint4? cs).or (endpoint6? cs) = some (e, []) := by
  unfold endpoint? at h
  split at h
  · rename_i e' k
    cases h
    exact k
  · exact absurd h (by simp)

end ServiceHealth.Net
