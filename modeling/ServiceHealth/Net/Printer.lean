import ServiceHealth.Net.Address

/-!
# The text of a socket address

Octets and ports are decimal, groups hexadecimal in lower case, all without leading zeros. Of a
version 6 address the first of the longest runs of at least two zero groups is left out, and a
mapped address shows the version 4 address it carries. Brackets part a version 6 address from
the port; a scope other than zero stands before the closing bracket, after a percent sign.
-/

namespace ServiceHealth.Net

/-- The decimal digits of a number. -/
def decimal (n : Nat) : List Char := Nat.toDigits 10 n

/-- The four octets with points between them. -/
def V4.chars (v : V4) : List Char :=
  decimal v.a.toNat ++ '.' :: decimal v.b.toNat ++ '.' :: decimal v.c.toNat
    ++ '.' :: decimal v.d.toNat

/-- A group in hexadecimal. -/
def groupChars (g : UInt16) : List Char := Nat.toDigits 16 g.toNat

/-- Groups with colons between them. -/
def groupsChars : List UInt16 → List Char
  | [] => []
  | [g] => groupChars g
  | g :: h :: rest => groupChars g ++ ':' :: groupsChars (h :: rest)

/-- A run of groups, by its first index and its length. -/
structure Run where
  start : Nat
  length : Nat
  deriving DecidableEq, Repr

/-- The first of the longest runs of zeros, from the groups that are left, the index of the next
one, the run that ends there, and the longest run so far. -/
def longestZeros : List UInt16 → Nat → Run → Run → Run
  | [], _, _, longest => longest
  | g :: rest, i, current, longest =>
    if g = 0 then
      let current := if current.length = 0 then ⟨i, 1⟩ else ⟨current.start, current.length + 1⟩
      longestZeros rest (i + 1) current
        (if longest.length < current.length then current else longest)
    else longestZeros rest (i + 1) ⟨0, 0⟩ longest

/-- The run of zeros that the text leaves out, if it has at least two groups. -/
def V6.zeros (v : V6) : Run := longestZeros v.groups 0 ⟨0, 0⟩ ⟨0, 0⟩

/-- The characters of a version 6 address. -/
def V6.chars (v : V6) : List Char :=
  match v.mapped? with
  | some inner => [':', ':', 'f', 'f', 'f', 'f', ':'] ++ inner.chars
  | none =>
    if 1 < v.zeros.length then
      groupsChars (v.groups.take v.zeros.start) ++ ':' :: ':'
        :: groupsChars (v.groups.drop (v.zeros.start + v.zeros.length))
    else groupsChars v.groups

/-- The characters of a socket address. -/
def Endpoint.chars : Endpoint → List Char
  | .v4 address port => address.chars ++ ':' :: decimal port.toNat
  | .v6 address scope port =>
    let zone := if scope = 0 then [] else '%' :: decimal scope.toNat
    '[' :: (address.chars ++ zone ++ ']' :: ':' :: decimal port.toNat)

/-- The text of a socket address. -/
def Endpoint.text (e : Endpoint) : String := String.ofList e.chars

end ServiceHealth.Net
