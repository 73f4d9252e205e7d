import Mathlib.Algebra.Ring.Nat
import Mathlib.Data.List.Induction
import Mathlib.Data.List.TakeWhile
import ServiceHealth.Net.Printer
import ServiceHealth.Net.Reader
import ServiceHealth.Text.Numeral

/-!
# Numerals and what they denote

A row of digits denotes a number by the places of its digits. Each reader of numerals accepts the
rows that its rules allow and gives what they denote, and the writer writes a row that denotes the
number, without leading zeros.

* `IsDigit`, `Denotes`: what a row of digits denotes, in any base up to sixteen.
* `number?_eq_some_iff`: **a number in an address is the whole row of digits at the start**.
* `Numeral.read_eq_ok_iff`: **a number below a limit is read with a sign and leading zeros**.
* `toDigits_denotes`, `Shape.spells_toDigits`: what is written denotes the number that was meant.
-/

namespace ServiceHealth

namespace Text

/-! ## 1. Rows of digits -/

/-- A character stands for a digit in a base; case does not count. -/
def IsDigit (base : Nat) (c : Char) (d : Nat) : Prop :=
  d < base ∧ (c = Nat.digitChar d ∨ c = (Nat.digitChar d).toUpper)

/-- **What a row of digits denotes**: each further digit multiplies by the base and adds itself. -/
inductive Denotes (base : Nat) : List Char → Nat → Prop where
  | none : Denotes base [] 0
  | more {digits : List Char} {n d : Nat} {c : Char} (before : Denotes base digits n)
      (digit : IsDigit base c d) : Denotes base (digits ++ [c]) (base * n + d)

end Text

open Text

namespace Net

/-! ## 2. Numbers in addresses -/

/-- The table of digits, for the base sixteen and the characters that can be in it. -/
theorem digitValue?_table :
    ∀ n < 103, ∀ d < 16, digitValue? 16 (Char.ofNat n) = some d ↔ IsDigit 16 (Char.ofNat n) d := by
  unfold IsDigit
  decide +kernel

/-- A character beyond the small letters up to f is no digit. -/
theorem digitValue?_beyond {c : Char} (h : 103 ≤ c.toNat) (base : Nat) (le : base ≤ 16) :
    digitValue? base c = none := by
  have digit : ¬ ('0' ≤ c ∧ c ≤ '9') := fun k => absurd (show c.toNat ≤ 57 from k.2) (by omega)
  have small : ¬ ('a' ≤ c ∧ c ≤ 'f') := fun k => absurd (show c.toNat ≤ 102 from k.2) (by omega)
  have capital : ¬ ('A' ≤ c ∧ c ≤ 'F') := fun k => absurd (show c.toNat ≤ 70 from k.2) (by omega)
  unfold digitValue?
  rw [if_neg digit, if_neg small, if_neg capital]
  exact if_neg (Nat.not_lt.mpr le)

/-- The base decides only how many of the digits there are. -/
theorem digitValue?_base {base : Nat} (le : base ≤ 16) (c : Char) (d : Nat) :
    digitValue? base c = some d ↔ d < base ∧ digitValue? 16 c = some d := by
  unfold digitValue?
  dsimp only
  generalize (if '0' ≤ c ∧ c ≤ '9' then _ else _ : Nat) = value
  constructor
  · intro h
    split at h
    · cases h
      exact ⟨by assumption, if_pos (by omega)⟩
    · cases h
  · rintro ⟨lt, h⟩
    split at h
    · cases h
      exact if_pos lt
    · cases h

/-- **The value of a character is the digit that it stands for.** -/
theorem digitValue?_eq_some_iff {base : Nat} (le : base ≤ 16) {c : Char} {d : Nat} :
    digitValue? base c = some d ↔ IsDigit base c d := by
  have whole : d < 16 → (digitValue? 16 c = some d ↔ IsDigit 16 c d) := by
    intro lt
    by_cases h : c.toNat < 103
    · have := digitValue?_table c.toNat h d lt
      rwa [Char.ofNat_toNat] at this
    · have all : ∀ d < 16, (Nat.digitChar d).toNat < 103 ∧
          (Nat.digitChar d).toUpper.toNat < 103 := by decide
      rw [digitValue?_beyond (Nat.le_of_not_lt h) 16 (Nat.le_refl _)]
      refine ⟨nofun, fun ⟨_, k⟩ => absurd ?_ h⟩
      rcases k with rfl | rfl
      · exact (all d lt).1
      · exact (all d lt).2
  rw [digitValue?_base le]
  constructor
  · rintro ⟨lt, h⟩
    exact ⟨lt, ((whole (Nat.lt_of_lt_of_le lt le)).mp h).2⟩
  · rintro ⟨lt, h⟩
    have lt' := Nat.lt_of_lt_of_le lt le
    exact ⟨lt, (whole lt').mpr ⟨lt', h⟩⟩

theorem isDigit_iff {base : Nat} (le : base ≤ 16) {c : Char} :
    isDigit base c = true ↔ ∃ d, IsDigit base c d := by
  unfold isDigit
  rw [Option.isSome_iff_exists]
  exact exists_congr fun d => digitValue?_eq_some_iff le

theorem valueOf_append (base : Nat) (digits : List Char) (c : Char) :
    valueOf base (digits ++ [c]) =
      base * valueOf base digits + (digitValue? base c).getD 0 := by
  unfold valueOf
  rw [List.foldl_append]
  rfl

/-- **What a row of characters denotes**, if all of them are digits, is its value. -/
theorem denotes_iff {base : Nat} (le : base ≤ 16) {digits : List Char} {n : Nat} :
    Denotes base digits n ↔
      (∀ c ∈ digits, isDigit base c = true) ∧ valueOf base digits = n := by
  constructor
  · intro h
    induction h with
    | none => exact ⟨nofun, rfl⟩
    | @more digits n d c _ digit ih =>
      obtain ⟨all, value⟩ := ih
      refine ⟨fun x mem => ?_, ?_⟩
      · rcases List.mem_append.mp mem with old | new
        · exact all x old
        · rw [List.mem_singleton.mp new]
          exact (isDigit_iff le).mpr ⟨d, digit⟩
      · rw [valueOf_append, value, (digitValue?_eq_some_iff le).mpr digit]
        rfl
  · rintro ⟨all, rfl⟩
    induction digits using List.reverseRecOn with
    | nil => exact .none
    | append_singleton digits c ih =>
      obtain ⟨d, digit⟩ := (isDigit_iff le).mp (all c (by simp))
      rw [valueOf_append, (digitValue?_eq_some_iff le).mpr digit]
      exact .more (ih fun x mem => all x (List.mem_append_left _ mem)) digit

/-- **Which rows of digits are numbers of a shape**, and which numbers they are. -/
structure Shape.Spells (s : Shape) (digits : List Char) (n : Nat) : Prop where
  denotes : Denotes s.base digits n
  nonempty : digits ≠ []
  short : ∀ w, s.width = some w → digits.length ≤ w
  lead : s.zeroFirst = false → digits.head? = some '0' → digits.length = 1
  small : n < s.limit

theorem Shape.admits_iff {s : Shape} (le : s.base ≤ 16) {digits : List Char}
    (all : ∀ c ∈ digits, isDigit s.base c = true) :
    s.admits digits = true ↔ s.Spells digits (valueOf s.base digits) := by
  have width : s.width.all (digits.length ≤ ·) = true ↔
      ∀ w, s.width = some w → digits.length ≤ w := by
    cases s.width with
    | none => simp
    | some w => simp
  have lead : (s.zeroFirst || digits.length ≤ 1 || digits.head? != some '0') = true ↔
      (digits ≠ [] → s.zeroFirst = false → digits.head? = some '0' → digits.length = 1) := by
    cases digits with
    | nil => simp
    | cons c cs =>
      cases s.zeroFirst
      · simp only [Bool.false_or, Bool.or_eq_true, decide_eq_true_eq, bne_iff_ne, List.length_cons]
        have one : cs.length + 1 ≤ 1 ↔ cs.length + 1 = 1 := by omega
        rw [one]
        tauto
      · simp
  unfold Shape.admits
  rw [Bool.and_eq_true, Bool.and_eq_true, Bool.and_eq_true, width, lead, decide_eq_true_eq]
  constructor
  · rintro ⟨⟨⟨some_digit, short⟩, lead⟩, small⟩
    have nonempty : digits ≠ [] := by simpa using some_digit
    exact ⟨(denotes_iff le).mpr ⟨all, rfl⟩, nonempty, short, lead nonempty, small⟩
  · rintro ⟨-, nonempty, short, lead, small⟩
    exact ⟨⟨⟨by simpa using nonempty, short⟩, fun _ => lead⟩, small⟩

/-- **A number in an address is the whole row of digits at the start.** -/
theorem number?_eq_some_iff {s : Shape} (le : s.base ≤ 16) {cs rest : List Char} {n : Nat} :
    number? s cs = some (n, rest) ↔ ∃ digits, cs = digits ++ rest ∧ s.Spells digits n ∧
      ∀ c ∈ rest.head?, isDigit s.base c = false := by
  unfold number?
  dsimp only
  constructor
  · intro h
    split at h
    · rename_i admits
      cases h
      refine ⟨_, (List.takeWhile_append_dropWhile).symm,
        (Shape.admits_iff le fun c mem => List.mem_takeWhile_imp mem).mp admits, fun c mem => ?_⟩
      have := List.head?_dropWhile_not (isDigit s.base) cs
      rw [Option.mem_def.mp mem] at this
      simpa using this
    · cases h
  · rintro ⟨digits, rfl, spells, stop⟩
    obtain ⟨all, value⟩ := (denotes_iff le).mp spells.denotes
    have ends : rest.takeWhile (isDigit s.base) = [] ∧
        rest.dropWhile (isDigit s.base) = rest := by
      cases rest with
      | nil => exact ⟨rfl, rfl⟩
      | cons c rest => simp [stop c rfl]
    rw [List.takeWhile_append_of_pos all, List.dropWhile_append_of_pos all, ends.1, ends.2,
      List.append_nil, if_pos ((Shape.admits_iff le all).mpr (value ▸ spells)), value]

end Net

/-! ## 3. Numbers below a limit -/

namespace Text.Numeral

/-- **How a number may be spelled**: with an optional plus sign, at least one digit and any number
of leading zeros. -/
def Spells (cs : List Char) (n : Nat) : Prop :=
  ∃ digits, (cs = digits ∨ cs = '+' :: digits) ∧ digits ≠ [] ∧ Denotes 10 digits n

theorem digitValue?_ten (c : Char) : digitValue? c = Net.digitValue? 10 c := by
  have ascii : c.isDigit = true ↔ '0' ≤ c ∧ c ≤ '9' := by
    unfold Char.isDigit
    rw [Bool.and_eq_true, decide_eq_true_eq, decide_eq_true_eq]
    exact Iff.rfl
  by_cases h : '0' ≤ c ∧ c ≤ '9'
  · have digit := ascii.mpr h
    have bound : c.toNat ≤ 57 := h.2
    unfold digitValue? Net.digitValue?
    rw [if_pos digit, if_pos h]
    exact (if_pos (show c.toNat - 48 < 10 by omega)).symm
  · have digit := mt ascii.mp h
    unfold digitValue? Net.digitValue?
    rw [if_neg digit, if_neg h]
    refine (if_neg ?_).symm
    split
    · omega
    · split <;> omega

/-- What the digits that are left make of the number so far. -/
def grown (value : Nat) (digits : List Char) : Nat :=
  digits.foldl (fun n c => 10 * n + (Net.digitValue? 10 c).getD 0) value

theorem le_grown (value : Nat) (digits : List Char) : value ≤ grown value digits := by
  induction digits generalizing value with
  | nil => exact Nat.le_refl value
  | cons c rest ih =>
    have first : value ≤ 10 * value + (Net.digitValue? 10 c).getD 0 := by omega
    exact Nat.le_trans first (ih _)

/-- **The reader gives the number if all its digits are digits and it fits**: a number that has
grown too large does not get smaller. -/
theorem scan_eq_ok_iff {limit value : Nat} (lt : value < limit) (cs : List Char) (n : Nat) :
    scan limit value cs = .ok n ↔
      (∀ c ∈ cs, Net.isDigit 10 c = true) ∧ grown value cs = n ∧ n < limit := by
  induction cs generalizing value with
  | nil =>
    constructor
    · intro h
      cases h
      exact ⟨nofun, rfl, lt⟩
    · rintro ⟨-, rfl, -⟩
      rfl
  | cons c rest ih =>
    rw [scan_cons, digitValue?_ten, List.forall_mem_cons]
    cases hd : Net.digitValue? 10 c with
    | none =>
      have none_digit : Net.isDigit 10 c = false := by simp [Net.isDigit, hd]
      refine ⟨nofun, fun ⟨⟨digit, _⟩, _⟩ => ?_⟩
      rw [none_digit] at digit
      cases digit
    | some d =>
      have digit : Net.isDigit 10 c = true := by simp [Net.isDigit, hd]
      have next : grown value (c :: rest) = grown (10 * value + d) rest := by
        simp [grown, hd]
      rw [next]
      dsimp only
      split
      · rename_i fits
        rw [ih fits]
        simp [digit]
      · rename_i large
        have := le_grown (10 * value + d) rest
        exact ⟨nofun, fun ⟨_, e, fits⟩ => by omega⟩

theorem scan_zero_iff {limit : Nat} {cs : List Char} (nonempty : cs ≠ []) (n : Nat) :
    scan limit 0 cs = .ok n ↔ Denotes 10 cs n ∧ n < limit := by
  rw [Net.denotes_iff (by decide)]
  rcases Nat.eq_zero_or_pos limit with rfl | pos
  · refine ⟨fun h => ?_, fun h => absurd h.2 (Nat.not_lt_zero n)⟩
    obtain ⟨c, rest, rfl⟩ := List.exists_cons_of_ne_nil nonempty
    rw [scan_cons] at h
    split at h
    · cases h
    · simp at h
  · rw [scan_eq_ok_iff pos]
    exact ⟨fun ⟨all, value, fits⟩ => ⟨⟨all, value⟩, fits⟩,
      fun ⟨⟨all, value⟩, fits⟩ => ⟨all, value, fits⟩⟩

/-- A sign is no digit, so it is in front of all of them. -/
theorem not_denotes_plus (rest : List Char) (n : Nat) : ¬ Denotes 10 ('+' :: rest) n := fun h =>
  absurd (((Net.denotes_iff (by decide)).mp h).1 '+' List.mem_cons_self) (by decide)

/-- **A number below a limit is read however it is spelled**, and nothing else is. -/
theorem read_eq_ok_iff {limit : Nat} {cs : List Char} {n : Nat} :
    read limit cs = .ok n ↔ Spells cs n ∧ n < limit := by
  unfold Spells
  constructor
  · intro h
    unfold read at h
    split at h
    · cases h
    · cases h
    · rename_i rest some_digit
      have nonempty : rest ≠ [] := fun e => some_digit (by rw [e])
      obtain ⟨denotes, fits⟩ := (scan_zero_iff nonempty n).mp h
      exact ⟨⟨rest, .inr rfl, nonempty, denotes⟩, fits⟩
    · rename_i nonempty _ _
      obtain ⟨denotes, fits⟩ := (scan_zero_iff nonempty n).mp h
      exact ⟨⟨cs, .inl rfl, nonempty, denotes⟩, fits⟩
  · rintro ⟨⟨digits, spelled, nonempty, denotes⟩, fits⟩
    have scanned := (scan_zero_iff nonempty n).mpr ⟨denotes, fits⟩
    obtain ⟨c, rest, rfl⟩ := List.exists_cons_of_ne_nil nonempty
    rcases spelled with rfl | rfl
    · have unsigned : c ≠ '+' := fun e => not_denotes_plus rest n (e ▸ denotes)
      unfold read
      split
      · rename_i e
        cases e
      · rename_i e
        exact absurd (List.cons.inj e).1 unsigned
      · rename_i e
        exact absurd (List.cons.inj e).1 unsigned
      · exact scanned
    · unfold read
      exact scanned

end Text.Numeral

/-! ## 4. What is written -/

namespace Text

theorem IsDigit.small {base d : Nat} (h : d < base) : IsDigit base (Nat.digitChar d) d :=
  ⟨h, .inl rfl⟩

/-- **The digits of a number denote it.** -/
theorem toDigits_denotes {base : Nat} (pos : 1 < base) (n : Nat) :
    Denotes base (Nat.toDigits base n) n := by
  induction n using Nat.strongRecOn with
  | ind n ih =>
    rw [Nat.toDigits_eq_if pos]
    split
    · rename_i small
      have one := Denotes.more .none (IsDigit.small small)
      rwa [Nat.mul_zero, Nat.zero_add] at one
    · rename_i large
      have lt : n / base < n := Nat.div_lt_self (by omega) pos
      have all := Denotes.more (ih _ lt) (IsDigit.small (Nat.mod_lt n (by omega)))
      rwa [Nat.div_add_mod] at all

/-- Only zero begins with a zero. -/
theorem toDigits_lead {n : Nat} (h : (Nat.toDigits 10 n).head? = some '0') :
    (Nat.toDigits 10 n).length = 1 := by
  induction n using Nat.strongRecOn with
  | ind n ih =>
    rw [Nat.toDigits_eq_if (by decide)] at h ⊢
    split
    · rfl
    · rename_i large
      exfalso
      rw [if_neg large, List.head?_append] at h
      obtain ⟨c, cs, digits⟩ :=
        List.exists_cons_of_ne_nil (Nat.toDigits_ne_nil (n := n / 10) (b := 10))
      have first : (Nat.toDigits 10 (n / 10)).head? = some '0' := by
        rw [digits] at h ⊢
        exact h
      have one := ih (n / 10) (by omega) first
      -- a single digit is the number itself, which is not zero here
      have small := (Nat.length_toDigits_le_iff (b := 10) (by decide) (k := 1) (by decide)).mp
        (Nat.le_of_eq one)
      rw [Nat.toDigits_of_lt_base (by omega)] at first
      have zero : ∀ d < 10, (Nat.digitChar d) = '0' → d = 0 := by decide
      have := zero (n / 10) (by omega) (by simpa using first)
      omega

end Text

namespace Net

/-- **What is written of a number in an address spells it**, if there is room for it. -/
theorem Shape.spells_toDigits {s : Shape} (base : s.base = 10 ∨ s.zeroFirst = true ∧ s.base = 16)
    {n : Nat} (small : n < s.limit) (short : ∀ w, s.width = some w → 0 < w ∧ n < s.base ^ w) :
    s.Spells (Nat.toDigits s.base n) n where
  denotes := toDigits_denotes (by rcases base with e | ⟨-, e⟩ <;> rw [e] <;> decide) n
  nonempty := Nat.toDigits_ne_nil
  short w hw := by
    obtain ⟨pos, lt⟩ := short w hw
    exact (Nat.length_toDigits_le_iff
      (by rcases base with e | ⟨-, e⟩ <;> rw [e] <;> decide) pos).mpr lt
  lead strict first := by
    rcases base with e | ⟨free, -⟩
    · rw [e] at first ⊢
      exact toDigits_lead first
    · rw [free] at strict
      cases strict
  small := small

theorem octet_spelled (a : UInt8) : octetShape.Spells (decimal a.toNat) a.toNat :=
  Shape.spells_toDigits (.inl rfl) a.toNat_lt fun w hw => by
    cases hw
    exact ⟨by decide, Nat.lt_trans a.toNat_lt (by decide)⟩

theorem port_spelled (p : UInt16) : portShape.Spells (decimal p.toNat) p.toNat :=
  Shape.spells_toDigits (.inl rfl) p.toNat_lt nofun

theorem scope_spelled (z : UInt32) : scopeShape.Spells (decimal z.toNat) z.toNat :=
  Shape.spells_toDigits (.inl rfl) z.toNat_lt nofun

theorem group_spelled (g : UInt16) : groupShape.Spells (groupChars g) g.toNat :=
  Shape.spells_toDigits (.inr ⟨rfl, rfl⟩) g.toNat_lt fun w hw => by
    cases hw
    exact ⟨by decide, g.toNat_lt⟩

end Net

theorem Text.Numeral.spells_toString (n : Nat) : Spells (toString n).toList n := by
  refine ⟨Nat.toDigits 10 n, .inl ?_, Nat.toDigits_ne_nil, toDigits_denotes (by decide) n⟩
  rw [Nat.toString_eq_repr, Nat.toList_repr]

end ServiceHealth
