import ServiceHealth.Text.Quoted

/-!
# Quoted texts can be read back

Whatever is in a text, its escapes can be undone, and nothing in it ends the quotes early. What
stands between the quotes is printable, so there are no line breaks in it.

* `scan_body`: **a quoted text is read back up to its closing quote**.
* `not_control_of_isPrintable`: no control character is printable.
* `isPrintable_encode`: a quoted text is printable, whatever the text is.
-/

namespace ServiceHealth

namespace Text

/-! ## 1. Escapes -/

namespace Quoted

theorem hexValue_digitChar {d : Nat} (h : d < 16) : hexValue? (Nat.digitChar d) = some d := by
  have all : ∀ d < 16, hexValue? (Nat.digitChar d) = some d := by decide
  exact all d h

/-- A digit adds to the value of a code point. -/
theorem scan_digit {d : Nat} (h : d < 16) (value : Nat) (seen : Bool) (rest : List Char) :
    scan (.code value seen) (Nat.digitChar d :: rest) =
      scan (.code (16 * value + d) true) rest := by
  have other : Nat.digitChar d ≠ '\x7d' := by
    have all : ∀ d < 16, Nat.digitChar d ≠ '\x7d' := by decide
    exact all d h
  rw [scan, if_neg other, hexValue_digitChar h]

/-- **The digits of a code point give back the code point.** -/
theorem scan_digits (n : Nat) (seen : Bool) (rest : List Char) :
    scan (.code 0 seen) (Nat.toDigits 16 n ++ rest) = scan (.code n true) rest := by
  induction n using Nat.strongRecOn generalizing rest with
  | ind n ih =>
    rw [Nat.toDigits_eq_if (by decide)]
    split
    · rename_i small
      rw [List.singleton_append, scan_digit small, Nat.mul_zero, Nat.zero_add]
    · rename_i large
      rw [List.append_assoc, ih (n / 16) (by omega), List.singleton_append,
        scan_digit (Nat.mod_lt n (by decide)), Nat.div_add_mod]

theorem charAt_toNat (c : Char) : charAt? c.toNat = some c := by
  unfold charAt?
  rw [if_pos (show c.toNat.isValidChar from c.valid), Char.ofNat_toNat]

/-- **A quoted text is read back up to its closing quote.** -/
theorem scan_body (cs rest : List Char) :
    scan .plain (body cs ++ '"' :: rest) = some (cs, rest) := by
  refine scan_undoes.text (fun c _ => ?_) cs rest
  unfold unabridged
  split
  · exact .inl ⟨rfl, trivial⟩
  · refine .inr fun rest => ?_
    simp only [List.cons_append, List.append_assoc, List.nil_append]
    rw [scan, if_neg (by decide), if_pos rfl, scan, if_pos rfl, scan, if_pos rfl, scan_digits,
      scan, if_pos rfl, if_pos rfl, charAt_toNat]

end Quoted

/-! ## 2. Printable characters -/

/-- A control character, such as a line break. -/
def IsControl (c : Char) : Prop := c.toNat < 0x20 ∨ (0x7f ≤ c.toNat ∧ c.toNat < 0xa0)

/-- **No control character is printable.** -/
theorem not_control_of_isPrintable {c : Char} (h : isPrintable c = true) : ¬ IsControl c := by
  have all : ∀ n < 0xa0, n < 0x20 ∨ 0x7f ≤ n → inRanges n unprintableRanges = true := by
    decide +kernel
  intro control
  have inside : inRanges c.toNat unprintableRanges = true := by
    unfold IsControl at control
    exact all c.toNat (by omega) (by omega)
  unfold isPrintable at h
  rw [inside] at h
  cases h

/-- The printable characters of ASCII. -/
theorem isPrintable_of_ascii {c : Char} (low : 0x20 ≤ c.toNat) (high : c.toNat < 0x7f) :
    isPrintable c = true := by
  rw [← Char.ofNat_toNat c, isPrintable_ascii _ high]
  exact decide_eq_true low

namespace Quoted

theorem isPrintable_digitChar {d : Nat} (h : d < 16) : isPrintable (Nat.digitChar d) = true := by
  have all : ∀ d < 16, isPrintable (Nat.digitChar d) = true := by decide +kernel
  exact all d h

theorem isPrintable_hexDigits (n : Nat) : ∀ c ∈ Nat.toDigits 16 n, isPrintable c = true := by
  induction n using Nat.strongRecOn with
  | ind n ih =>
    rw [Nat.toDigits_eq_if (by decide)]
    intro c mem
    split at mem
    · rename_i small
      rw [List.mem_singleton.mp mem]
      exact isPrintable_digitChar small
    · rename_i large
      rcases List.mem_append.mp mem with higher | last
      · exact ih (n / 16) (by omega) c higher
      · rw [List.mem_singleton.mp last]
        exact isPrintable_digitChar (Nat.mod_lt n (by decide))

/-- **Every character is written with printable ones.** -/
theorem isPrintable_written (c : Char) : ∀ d ∈ written c, isPrintable d = true := by
  have marks : (['\\', 'u', '\x7b', '\x7d'].all isPrintable) = true := by decide +kernel
  have mark {d : Char} := List.all_eq_true.mp marks d
  have letters : ∀ e ∈ escapes.written, isPrintable e.2 = true := by decide +kernel
  intro d mem
  unfold written at mem
  rcases escapes.write_cases unabridged c with ⟨letter, h, e⟩ | ⟨-, e⟩ <;> rw [e] at mem
  · simp only [List.mem_cons, List.not_mem_nil, or_false] at mem
    rcases mem with rfl | rfl
    · exact mark (by simp)
    · exact letters _ (Escapes.mem_of_letter? h)
  unfold unabridged at mem
  split at mem
  · rename_i alone
    rw [List.mem_singleton.mp mem]
    exact (Bool.and_eq_true_iff.mp alone).1
  · simp only [List.mem_cons, List.mem_append, List.not_mem_nil, or_false] at mem
    rcases mem with rfl | rfl | rfl | digit | rfl
    · exact mark (by simp)
    · exact mark (by simp)
    · exact mark (by simp)
    · exact isPrintable_hexDigits c.toNat d digit
    · exact mark (by simp)

theorem isPrintable_encode (cs : List Char) : ∀ d ∈ encode cs, isPrintable d = true := by
  have mark : isPrintable '"' = true := by decide +kernel
  intro d mem
  unfold encode body at mem
  simp only [List.mem_cons, List.mem_append, List.mem_flatMap, List.not_mem_nil, or_false] at mem
  rcases mem with rfl | ⟨c, -, mem⟩ | rfl
  · exact mark
  · exact isPrintable_written c d mem
  · exact mark

end Quoted

end Text

end ServiceHealth
