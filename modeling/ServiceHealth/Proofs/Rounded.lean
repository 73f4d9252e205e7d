import Mathlib.Algebra.Ring.Nat
import ServiceHealth.Decimal.Positional

/-!
# Whole numbers among the double-precision numbers

A double-precision number has fifty-three binary digits. A whole number that has no more is one of
them, and it is written as it is: nothing shorter than its own digits rounds to it, since its
interval has no whole number besides.

* `Binary64.reading_ofNat`: a whole number below the limit is a double-precision number.
* `Interval.Around`: an interval with one whole number in it, on every grid of the search.
* `Interval.Around.search`: the search ends with the number itself, on some grid.
* `Binary64.text_ofNat`: **a whole number below the limit is written by its digits**.
-/

namespace ServiceHealth.Decimal

/-! ## 1. Rounding -/

namespace Binary64

/-- One past the largest number up to which every whole number is a double-precision number. -/
def exactLimit : Nat := Nat.pow 2 53

/-- A quotient without a rest is not rounded. -/
theorem nearest_mul (k : Nat) {d : Nat} (pos : 0 < d) : nearest (k * d) d = k := by
  unfold nearest
  rw [Nat.mul_mod_left, Nat.mul_div_cancel k pos]
  simp only [Nat.mul_zero, Nat.not_lt_zero, false_or]
  exact if_neg fun h => Nat.ne_of_gt pos h.1

section

variable {n : Nat}

theorem log2_le (small : n < exactLimit) (pos : n ≠ 0) : n.log2 ≤ 52 :=
  Nat.lt_succ_iff.mp ((Nat.log2_lt pos).mpr small)

/-- The binary digits of a number that has not too many of them. -/
theorem digits_of_lt (small : n < exactLimit) (pos : n ≠ 0) :
    nearest (n * Nat.pow 2 52) (Nat.pow 2 n.log2) = n * 2 ^ (52 - n.log2) := by
  have log := log2_le small pos
  have split : n * Nat.pow 2 52 = n * 2 ^ (52 - n.log2) * 2 ^ n.log2 := by
    rw [Nat.mul_assoc, ← Nat.pow_add, Nat.sub_add_cancel log, Nat.pow_eq]
  rw [split]
  exact nearest_mul _ (Nat.two_pow_pos _)

/-- There are fifty-three of them. -/
theorem digits_bounds (small : n < exactLimit) (pos : n ≠ 0) :
    2 ^ 52 ≤ n * 2 ^ (52 - n.log2) ∧ n * 2 ^ (52 - n.log2) < 2 ^ 53 := by
  have log := log2_le small pos
  constructor
  · calc 2 ^ 52 = 2 ^ n.log2 * 2 ^ (52 - n.log2) := by rw [← Nat.pow_add]; congr 1; omega
      _ ≤ n * 2 ^ (52 - n.log2) := Nat.mul_le_mul_right _ (Nat.log2_self_le pos)
  · calc n * 2 ^ (52 - n.log2) < 2 ^ (n.log2 + 1) * 2 ^ (52 - n.log2) :=
          Nat.mul_lt_mul_of_pos_right Nat.lt_log2_self (Nat.two_pow_pos _)
      _ = 2 ^ 53 := by rw [← Nat.pow_add]; congr 1; omega

theorem bits_ofNat (small : n < exactLimit) (pos : n ≠ 0) :
    (ofNat n).bits.toNat = (n.log2 + 1022) * 2 ^ 52 + n * 2 ^ (52 - n.log2) := by
  have log := log2_le small pos
  obtain ⟨-, high⟩ := digits_bounds small pos
  unfold ofNat
  rw [if_neg pos, digits_of_lt small pos]
  simp only [UInt64.toNat_ofNat', Nat.pow_eq]
  omega

/-- **A whole number below the limit is a double-precision number**, and the first of its binary
digits is left out. -/
theorem reading_ofNat (small : n < exactLimit) (pos : n ≠ 0) :
    ∃ narrow, (ofNat n).reading =
      .finite false (shortest (n * 2 ^ (52 - n.log2)) (-(52 - n.log2 : Nat)) narrow) := by
  have log := log2_le small pos
  obtain ⟨low, high⟩ := digits_bounds small pos
  have bits := bits_ofNat small pos
  have exponent : (ofNat n).exponent = n.log2 + 1023 := by
    unfold Binary64.exponent
    simp only [Nat.pow_eq, bits]
    omega
  have fraction : (ofNat n).fraction = n * 2 ^ (52 - n.log2) - 2 ^ 52 := by
    unfold Binary64.fraction
    simp only [Nat.pow_eq, bits]
    omega
  have positive : (ofNat n).isNegative = false := by
    unfold isNegative
    simp only [Nat.pow_eq, bits, decide_eq_false_iff_not]
    omega
  have whole : n * 2 ^ (52 - n.log2) - 2 ^ 52 + Nat.pow 2 52 = n * 2 ^ (52 - n.log2) :=
    Nat.sub_add_cancel low
  have power : ((n.log2 + 1023 : Nat) : Int) - 1075 = -(52 - n.log2 : Nat) := by omega
  unfold reading
  rw [exponent, fraction, positive, if_neg (by omega), if_neg (by omega), whole, power]
  exact ⟨_, rfl⟩

end

end Binary64

/-! ## 2. The search -/

/-- An interval around `n`, with less than one to either side, when `c` stands for one. The grid
has a point at every multiple of `g`. -/
structure Interval.Around (i : Interval) (n g c : Nat) : Prop where
  value : i.value = c * n
  unit : i.unit = c * g
  low : i.value < i.low + c ∧ i.low < i.value
  high : i.value < i.high ∧ i.high < i.value + c

namespace Interval

variable {i : Interval} {n g c : Nat}

/-- What holds a point lies around it, and there is no other whole number than `n`. -/
theorem Around.eq_of_holds (around : i.Around n g c) {p : Nat} (h : i.holds p = true) :
    p * g = n := by
  have weak : i.low ≤ p * i.unit ∧ p * i.unit ≤ i.high := by
    unfold holds at h
    split at h <;> simp only [Bool.and_eq_true, decide_eq_true_eq] at h <;> omega
  have place : p * i.unit = c * (p * g) := by rw [around.unit, Nat.mul_left_comm]
  have low : c * n < c * (p * g + 1) := by
    rw [Nat.mul_succ, ← place, ← around.value]
    have := around.low
    omega
  have high : c * (p * g) < c * (n + 1) := by
    rw [Nat.mul_succ, ← place, ← around.value]
    have := around.high
    omega
  have := Nat.lt_of_mul_lt_mul_left low
  have := Nat.lt_of_mul_lt_mul_left high
  omega

theorem holds_of_point? {p : Nat} (h : i.point? = some p) : i.holds p = true := by
  unfold point? at h
  split at h
  · rename_i found
    cases h
    exact (Bool.and_eq_true_iff.mp found).1
  · split at h
    · rename_i found
      cases h
      exact found
    · cases h

/-- On the grid of all whole numbers there is a point. -/
theorem Around.point?_ne_none (around : i.Around n 1 c) : i.point? ≠ none := by
  have pos : 0 < c := by
    have := around.low
    omega
  have below : i.below = n := by
    unfold Interval.below
    rw [around.value, around.unit, Nat.mul_one, Nat.mul_div_cancel_left _ pos]
  have here : n * i.unit = i.value := by
    rw [around.unit, around.value, Nat.mul_one, Nat.mul_comm]
  have held : i.holds i.below = true := by
    have := around.low
    have := around.high
    rw [below]
    unfold holds
    split <;> simp only [Bool.and_eq_true, decide_eq_true_eq, here] <;> omega
  unfold point?
  rw [held]
  split <;> exact nofun

theorem Around.coarser (around : i.Around n 1 c) (j : Nat) :
    { i with unit := i.unit * 10 ^ j }.Around n (10 ^ j) c where
  value := around.value
  unit := congrArg (· * 10 ^ j) (around.unit.trans (Nat.mul_one c))
  low := around.low
  high := around.high

theorem Around.finer (around : i.Around n (10 * g) c) : i.finer.Around n g (10 * c) where
  value := by rw [Nat.mul_assoc, ← around.value]; rfl
  unit := by
    rw [Nat.mul_assoc, Nat.mul_left_comm]
    exact around.unit
  low := by
    have := around.low
    unfold Interval.finer
    dsimp only
    omega
  high := by
    have := around.high
    unfold Interval.finer
    dsimp only
    omega

/-- **The search ends with the number itself**, on some grid. -/
theorem Around.search {j : Nat} (around : i.Around n (10 ^ j) c) {fuel : Nat} (enough : j < fuel)
    (depth : Nat) :
    ∃ p k, k ≤ j ∧ Interval.search fuel depth i = some (p, depth + (j - k)) ∧ p * 10 ^ k = n := by
  induction j generalizing i c fuel depth with
  | zero =>
    obtain ⟨fuel, rfl⟩ := Nat.exists_eq_add_one.mpr enough
    obtain ⟨p, found⟩ := Option.ne_none_iff_exists'.mp around.point?_ne_none
    rw [Interval.search, found]
    exact ⟨p, 0, Nat.le_refl 0, rfl, around.eq_of_holds (holds_of_point? found)⟩
  | succ j ih =>
    obtain ⟨fuel, rfl⟩ := Nat.exists_eq_add_one.mpr (Nat.zero_lt_of_lt enough)
    rw [Interval.search]
    cases found : i.point? with
    | some p =>
      refine ⟨p, j + 1, Nat.le_refl _, ?_, around.eq_of_holds (holds_of_point? found)⟩
      rw [Nat.sub_self]
      rfl
    | none =>
      rw [Nat.pow_succ'] at around
      obtain ⟨p, k, le, ended, same⟩ := ih around.finer (Nat.lt_of_succ_lt_succ enough) (depth + 1)
      refine ⟨p, k, Nat.le_succ_of_le le, ?_, same⟩
      dsimp only
      rw [ended, Nat.succ_sub le, Nat.add_assoc, Nat.add_comm 1]

end Interval

/-! ## 3. The text of a whole number -/

/-- The reals that round to a whole number lie around it. -/
theorem roundingInterval_around {n : Nat} (pos : n ≠ 0) (s : Nat) (narrow : Bool) :
    (roundingInterval (n * 2 ^ s) (-(s : Int)) narrow).Around n 1 (4 * 2 ^ s) := by
  have up : (-(s : Int) - 2).toNat = 0 := by omega
  have down : (2 - -(s : Int)).toNat = s + 2 := by omega
  have one := Nat.two_pow_pos s
  have some : 1 ≤ n * 2 ^ s := Nat.mul_pos (Nat.pos_of_ne_zero pos) one
  unfold roundingInterval
  rw [up, down]
  refine ⟨?_, ?_, ?_, ?_⟩ <;> dsimp only <;> simp only [Nat.pow_eq, Nat.pow_zero, Nat.mul_one]
  · rw [Nat.mul_assoc, Nat.mul_comm n]
  · rw [Nat.pow_succ, Nat.pow_succ]
    omega
  · cases narrow <;> simp only [if_true, if_false, Bool.false_eq_true] <;> omega
  · omega

/-- **The shortest decimal of a whole number has the digits of the number**, then zeros. -/
theorem text_shortest {n : Nat} (pos : n ≠ 0) (s : Nat) (narrow : Bool) :
    (shortest (n * 2 ^ s) (-(s : Int)) narrow).text = Nat.toDigits 10 n := by
  have around := roundingInterval_around pos s narrow
  unfold shortest
  generalize roundingInterval (n * 2 ^ s) (-(s : Int)) narrow = i at around ⊢
  dsimp only
  generalize (Nat.toDigits 10 (i.high / i.unit)).length = start
  obtain ⟨p, k, le, ended, same⟩ :=
    (around.coarser start).search (show start < start + 1100 by omega) 0
  have power : (start : Int) - (0 + (start - k) : Nat) = k := by omega
  rw [Nat.pow_eq, ended]
  dsimp only
  rw [power, Scaled.text_whole, Nat.pow_eq, same]

/-- **A whole number below the limit is written by its digits.** -/
theorem Binary64.text_ofNat {n : Nat} (small : n < exactLimit) :
    (ofNat n).text = toString n := by
  by_cases zero : n = 0
  · subst zero
    decide
  · obtain ⟨narrow, reading⟩ := reading_ofNat small zero
    unfold Binary64.text
    rw [reading, Reading.text, text_shortest zero, Nat.toString_eq_repr, Nat.repr]
    rfl

/-- The limit is sharp: the number after it is written as if it were the limit. -/
example : (Binary64.ofNat (Binary64.exactLimit + 1)).text = "9007199254740992" := by
  decide +kernel

end ServiceHealth.Decimal
