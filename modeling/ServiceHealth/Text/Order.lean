/-!
# The order of texts by their UTF-8 bytes

Names are listed in the order of their UTF-8 bytes, the first differing byte deciding and a
proper beginning coming first. This is a strict linear order on texts.

* `Before.irrefl`, `Before.trans`: it is a strict order.
* `before_or_eq_or_before`: any two texts are comparable.
-/

namespace ServiceHealth.Text

/-- The UTF-8 bytes of a text. -/
def bytes (s : String) : List UInt8 := s.toByteArray.data.toList

/-- The first text comes before the second in byte order. -/
def Before (a b : String) : Prop := bytes a < bytes b

instance (a b : String) : Decidable (Before a b) :=
  inferInstanceAs (Decidable (bytes a < bytes b))

/-- **Texts with equal bytes are equal.** -/
theorem bytes_inj {a b : String} (h : bytes a = bytes b) : a = b := by
  apply String.toByteArray_inj.mp
  apply ByteArray.ext
  exact Array.toList_inj.mp h

theorem Before.irrefl (a : String) : ¬ Before a a := List.lt_irrefl (bytes a)

theorem Before.trans {a b c : String} (h : Before a b) (k : Before b c) : Before a c :=
  List.lt_trans h k

theorem Before.ne {a b : String} (h : Before a b) : a ≠ b := fun e =>
  Before.irrefl b (e ▸ h)

theorem Before.asymm {a b : String} (h : Before a b) : ¬ Before b a := fun k =>
  Before.irrefl a (h.trans k)

/-- **Any two texts are comparable.** -/
theorem before_or_eq_or_before (a b : String) : Before a b ∨ a = b ∨ Before b a := by
  by_cases h : Before a b
  · exact .inl h
  by_cases k : Before b a
  · exact .inr (.inr k)
  · exact .inr (.inl (bytes_inj (List.le_antisymm (List.not_lt.mp k) (List.not_lt.mp h))))

end ServiceHealth.Text
