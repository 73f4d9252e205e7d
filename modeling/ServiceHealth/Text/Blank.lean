/-!
# Blank characters

White space is the Unicode property White_Space: twenty-five characters. Trimming drops them at
both ends of a text and nowhere else.

* `trimChars_of_ends`: a text whose first and last characters are not blank is left as it is.
-/

namespace ServiceHealth.Text

/-! ## 1. The property -/

/-- The characters of the Unicode property White_Space. -/
def isBlank (c : Char) : Bool :=
  let n := c.toNat
  (9 ≤ n && n ≤ 13) || n == 0x20 || n == 0x85 || n == 0xA0 || n == 0x1680
    || (0x2000 ≤ n && n ≤ 0x200A) || n == 0x2028 || n == 0x2029 || n == 0x202F
    || n == 0x205F || n == 0x3000

/-! ## 2. Trimming -/

/-- Drops the blank characters at both ends. -/
def trimChars (cs : List Char) : List Char :=
  ((cs.dropWhile isBlank).reverse.dropWhile isBlank).reverse

private theorem dropWhile_of_head {cs : List Char}
    (h : ∀ c ∈ cs.head?, isBlank c = false) : cs.dropWhile isBlank = cs := by
  cases cs with
  | nil => rfl
  | cons c r => simp [h c (by simp)]

/-- **A text whose first and last characters are not blank is left as it is.** -/
theorem trimChars_of_ends {cs : List Char} (first : ∀ c ∈ cs.head?, isBlank c = false)
    (last : ∀ c ∈ cs.getLast?, isBlank c = false) : trimChars cs = cs := by
  rw [trimChars, dropWhile_of_head first, dropWhile_of_head, List.reverse_reverse]
  intro c hc
  exact last c (by simpa using hc)

end ServiceHealth.Text
