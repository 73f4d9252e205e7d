/-!
# Socket addresses

An address of either protocol version, with a port. A version 6 address has eight groups of
sixteen bits and may belong to a scope; scope zero means none.
-/

namespace ServiceHealth.Net

/-- An address of protocol version 4, by its octets. -/
structure V4 where
  a : UInt8
  b : UInt8
  c : UInt8
  d : UInt8
  deriving DecidableEq, Repr

namespace V4

/-- The first two octets as a group. -/
def high (v : V4) : UInt16 := UInt16.ofNat (256 * v.a.toNat + v.b.toNat)

/-- The last two octets as a group. -/
def low (v : V4) : UInt16 := UInt16.ofNat (256 * v.c.toNat + v.d.toNat)

/-- The address of two groups. -/
def ofGroups (high low : UInt16) : V4 :=
  ⟨UInt8.ofNat (high.toNat / 256), UInt8.ofNat (high.toNat % 256),
    UInt8.ofNat (low.toNat / 256), UInt8.ofNat (low.toNat % 256)⟩

end V4

/-- An address of protocol version 6: eight groups, the most significant first. -/
structure V6 where
  groups : List UInt16
  eight : groups.length = 8
  deriving DecidableEq

namespace V6

/-- The address with these groups, if there are eight. -/
def ofGroups? (groups : List UInt16) : Option V6 :=
  if h : groups.length = 8 then some ⟨groups, h⟩ else none

/-- The version 4 address that a mapped address carries: five groups of zeros and one of ones
come before it. -/
def mapped? (v : V6) : Option V4 :=
  match v.groups with
  | [0, 0, 0, 0, 0, 0xFFFF, high, low] => some (V4.ofGroups high low)
  | _ => none

/-- **Eight groups make an address, which has these groups.** -/
theorem ofGroups?_eq_some {groups : List UInt16} {v : V6} :
    ofGroups? groups = some v ↔ v.groups = groups := by
  unfold ofGroups?
  constructor
  · intro h
    split at h
    · cases h; rfl
    · cases h
  · rintro rfl
    simp [v.eight]

end V6

/-- An address and a port, and with protocol version 6 the scope. -/
inductive Endpoint where
  | v4 (address : V4) (port : UInt16)
  | v6 (address : V6) (scope : UInt32) (port : UInt16)
  deriving DecidableEq

namespace Endpoint

/-- The port. -/
def port : Endpoint → UInt16
  | .v4 _ port => port
  | .v6 _ _ port => port

/-- The protocol version, four or six. -/
def version : Endpoint → Nat
  | .v4 _ _ => 4
  | .v6 _ _ _ => 6

end Endpoint

end ServiceHealth.Net
