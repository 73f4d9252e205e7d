import ServiceHealth.Proofs.Fields
import ServiceHealth.Text.Order

/-!
# The order of numerals

Texts are ordered by their bytes. Where they have only ASCII characters that is the order of the
characters, the first that differs deciding; so texts that consist of parts of fixed lengths are
ordered part by part. Numerals of one length are in the order of their numbers.

* `before_ofList_iff`: **texts of ASCII characters are in the order of their characters**.
* `append_lt_append_iff`: texts of two parts, the first ones of one length.
* `padded_lt_iff`: **padded numerals of one length are in the order of their numbers**.
-/

namespace ServiceHealth

namespace Text

/-! ## 1. Characters -/

/-- An ASCII character is a byte. -/
theorem toNat_toUInt8 {c : Char} (ascii : c.toNat < 0x80) : c.val.toUInt8.toNat = c.toNat := by
  rw [UInt32.toNat_toUInt8]
  exact Nat.mod_eq_of_lt (Nat.lt_trans ascii (by decide))

section Bytes

variable {c d : Char} (hc : c.toNat < 0x80) (hd : d.toNat < 0x80)

include hc hd

/-- Bytes of ASCII characters are in the order of the characters. -/
theorem toUInt8_lt_iff : c.val.toUInt8 < d.val.toUInt8 ↔ c < d := by
  rw [UInt8.lt_iff_toNat_lt, toNat_toUInt8 hc, toNat_toUInt8 hd, Char.lt_def,
    UInt32.lt_iff_toNat_lt]
  rfl

theorem toUInt8_eq_iff : c.val.toUInt8 = d.val.toUInt8 ↔ c = d := by
  rw [← UInt8.toNat_inj, toNat_toUInt8 hc, toNat_toUInt8 hd, Char.toNat_inj]

end Bytes

/-- The bytes of a text of ASCII characters, one for each. -/
theorem bytes_ofList {cs : List Char} (ascii : ∀ c ∈ cs, c.toNat < 0x80) :
    bytes (String.ofList cs) = cs.map fun c => c.val.toUInt8 := by
  unfold bytes
  rw [String.toByteArray_ofList]
  unfold List.utf8Encode
  rw [List.data_toByteArray, List.toList_toArray]
  induction cs with
  | nil => rfl
  | cons c cs ih =>
    have one : c.utf8Size = 1 := by
      rw [Char.utf8Size_eq_one_iff, UInt32.le_iff_toNat_le]
      exact Nat.le_of_lt_succ (ascii c List.mem_cons_self)
    rw [List.flatMap_cons, String.utf8EncodeChar_eq_singleton one,
      ih fun d mem => ascii d (List.mem_cons_of_mem _ mem)]
    rfl

/-- **Texts of ASCII characters are in the order of their characters.** -/
theorem before_ofList_iff {cs ds : List Char} (hc : ∀ c ∈ cs, c.toNat < 0x80)
    (hd : ∀ d ∈ ds, d.toNat < 0x80) :
    Before (String.ofList cs) (String.ofList ds) ↔ cs < ds := by
  unfold Before
  rw [bytes_ofList hc, bytes_ofList hd]
  induction cs generalizing ds with
  | nil => cases ds <;> simp
  | cons c cs ih =>
    cases ds with
    | nil => simp
    | cons d ds =>
      have hc' := hc c List.mem_cons_self
      have hd' := hd d List.mem_cons_self
      rw [List.map_cons, List.map_cons, List.cons_lt_cons_iff, List.cons_lt_cons_iff,
        toUInt8_lt_iff hc' hd', toUInt8_eq_iff hc' hd',
        ih (fun x mem => hc x (List.mem_cons_of_mem _ mem))
          fun x mem => hd x (List.mem_cons_of_mem _ mem)]

/-- Texts of two parts, the first ones of one length, are ordered part by part. -/
theorem append_lt_append_iff {xs ys zs ws : List Char} (length : xs.length = ys.length) :
    xs ++ zs < ys ++ ws ↔ xs < ys ∨ xs = ys ∧ zs < ws := by
  induction xs generalizing ys with
  | nil =>
    obtain rfl := List.length_eq_zero_iff.mp length.symm
    simp
  | cons x xs ih =>
    cases ys with
    | nil => cases length
    | cons y ys =>
      rw [List.cons_append, List.cons_append, List.cons_lt_cons_iff, List.cons_lt_cons_iff,
        ih (Nat.succ.inj length), List.cons.injEq, or_assoc, and_or_left, and_assoc]

end Text

namespace Log

/-! ## 2. Digits -/

/-- The number of some digits, by the first of them. -/
theorem ofDigitChars_first (c : Char) (cs : List Char) :
    Nat.ofDigitChars 10 (c :: cs) 0 =
      Nat.pow 10 cs.length * (c.toNat - '0'.toNat) + Nat.ofDigitChars 10 cs 0 := by
  rw [Nat.ofDigitChars_cons, Nat.ofDigitChars_eq_ofDigitChars_zero, Nat.mul_zero, Nat.zero_add]
  rfl

/-- Digits make a number below the power of ten that has one place more. -/
theorem ofDigitChars_lt {cs : List Char} (digits : ∀ c ∈ cs, c.isDigit = true) :
    Nat.ofDigitChars 10 cs 0 < Nat.pow 10 cs.length := by
  induction cs with
  | nil => decide
  | cons c cs ih =>
    have rest := ih fun d mem => digits d (List.mem_cons_of_mem _ mem)
    have high := (Char.isDigit_iff_toNat.mp (digits c List.mem_cons_self)).2
    have first : c.toNat - '0'.toNat ≤ 9 := Nat.sub_le_sub_right high '0'.toNat
    have most := Nat.mul_le_mul_left (Nat.pow 10 cs.length) first
    have power : Nat.pow 10 (cs.length + 1) = Nat.pow 10 cs.length * 10 := rfl
    rw [ofDigitChars_first, List.length_cons, power]
    omega

/-- **Digits of one length are in the order of their numbers.** -/
theorem digits_lt_iff {cs ds : List Char} (hc : ∀ c ∈ cs, c.isDigit = true)
    (hd : ∀ d ∈ ds, d.isDigit = true) (length : cs.length = ds.length) :
    cs < ds ↔ Nat.ofDigitChars 10 cs 0 < Nat.ofDigitChars 10 ds 0 := by
  induction cs generalizing ds with
  | nil =>
    obtain rfl := List.length_eq_zero_iff.mp length.symm
    simp
  | cons c cs ih =>
    cases ds with
    | nil => cases length
    | cons d ds =>
      have length' := Nat.succ.inj length
      have hc' : ∀ x ∈ cs, x.isDigit = true := fun x mem => hc x (List.mem_cons_of_mem _ mem)
      have hd' : ∀ x ∈ ds, x.isDigit = true := fun x mem => hd x (List.mem_cons_of_mem _ mem)
      have low := (Char.isDigit_iff_toNat.mp (hc c List.mem_cons_self)).1
      have low' := (Char.isDigit_iff_toNat.mp (hd d List.mem_cons_self)).1
      have rest := ofDigitChars_lt hc'
      have rest' := ofDigitChars_lt hd'
      have order : c < d ↔ c.toNat < d.toNat := by
        rw [Char.lt_def, UInt32.lt_iff_toNat_lt]
        rfl
      rw [List.cons_lt_cons_iff, ih hc' hd' length', ofDigitChars_first, ofDigitChars_first, order,
        ← Char.toNat_inj, ← length']
      rw [← length'] at rest'
      have zero : '0'.toNat = 48 := rfl
      rw [zero]
      rcases Nat.lt_trichotomy c.toNat d.toNat with lt | eq | gt
      · have apart := Nat.mul_le_mul_left (Nat.pow 10 cs.length)
          (show c.toNat - 48 + 1 ≤ d.toNat - 48 by omega)
        rw [Nat.mul_succ] at apart
        exact iff_of_true (.inl lt) (by omega)
      · rw [eq]
        omega
      · have apart := Nat.mul_le_mul_left (Nat.pow 10 cs.length)
          (show d.toNat - 48 + 1 ≤ c.toNat - 48 by omega)
        rw [Nat.mul_succ] at apart
        exact iff_of_false (by omega) (by omega)

theorem padded_ne_nil (width n : Nat) : Decimal.padded width n ≠ [] :=
  List.append_ne_nil_of_right_ne_nil _ Nat.toDigits_ne_nil

section Padded

variable {width n m : Nat}

theorem padded_inj : Decimal.padded width n = Decimal.padded width m ↔ n = m := by
  refine ⟨fun same => ?_, fun same => by rw [same]⟩
  rw [← ofDigitChars_padded width n, same, ofDigitChars_padded]

/-- **Padded numerals of one length are in the order of their numbers.** -/
theorem padded_lt_iff (pos : 0 < width) (hn : n < Nat.pow 10 width) (hm : m < Nat.pow 10 width) :
    Decimal.padded width n < Decimal.padded width m ↔ n < m := by
  rw [digits_lt_iff (fun _ => isDigit_padded) (fun _ => isDigit_padded)
    ((length_padded pos hn).trans (length_padded pos hm).symm), ofDigitChars_padded,
    ofDigitChars_padded]

/-- A padded numeral is read back. -/
theorem natural?_padded : natural? (Decimal.padded width n) = some n := by
  rw [natural?_digits (padded_ne_nil width n) fun _ => isDigit_padded, ofDigitChars_padded]

end Padded

end Log

end ServiceHealth
