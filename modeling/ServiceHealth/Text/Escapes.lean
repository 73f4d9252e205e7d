/-!
# Short escapes

Between quotes some characters are written as a backslash and a letter. A table has the letters of
these characters, the quote and the backslash among them, and further letters that a reader accepts;
no letter occurs twice, so each leads back to its character.

* `char?_of_letter?`: the letter of a character leads back to it.
* `Undoes`: a reader that undoes the escapes of a table.
* `Undoes.text`: such a reader gives back any text up to its closing quote.
-/

namespace ServiceHealth.Text

/-- Characters with the letters of their short escapes: those that are written, and further ones
that are only read. -/
structure Escapes where
  written : List (Char × Char)
  accepted : List (Char × Char)
  distinct : ((written ++ accepted).map (·.2)).Nodup
  complete : ∀ c ∈ ['"', '\\'], c ∈ written.map (·.1)

namespace Escapes

variable {t : Escapes} {c letter : Char}

/-- The letter of a character's short escape. -/
def letter? (t : Escapes) (c : Char) : Option Char := t.written.lookup c

/-- The character that the letter of a short escape stands for. -/
def char? (t : Escapes) (letter : Char) : Option Char :=
  ((t.written ++ t.accepted).find? (·.2 == letter)).map (·.1)

/-- A character as it is written between quotes; one without a short escape is written in another
way. -/
def write (t : Escapes) (other : Char → List Char) (c : Char) : List Char :=
  match t.letter? c with
  | some letter => ['\\', letter]
  | none => other c

theorem write_cases (t : Escapes) (other : Char → List Char) (c : Char) :
    (∃ letter, t.letter? c = some letter ∧ t.write other c = ['\\', letter]) ∨
    (t.letter? c = none ∧ t.write other c = other c) := by
  unfold write
  cases h : t.letter? c with
  | some letter => exact .inl ⟨letter, rfl, rfl⟩
  | none => exact .inr ⟨rfl, rfl⟩

theorem mem_of_letter? (h : t.letter? c = some letter) : (c, letter) ∈ t.written := by
  obtain ⟨l, l', e, -⟩ := List.lookup_eq_some_iff.mp h
  rw [e]
  exact List.mem_append_right l (List.mem_cons_self ..)

/-- **The letter of a character leads back to it.** -/
theorem char?_of_letter? (h : t.letter? c = some letter) : t.char? letter = some c := by
  have mem := List.mem_append_left t.accepted (mem_of_letter? h)
  have distinct := t.distinct
  unfold char?
  generalize t.written ++ t.accepted = es at mem distinct
  induction es with
  | nil => cases mem
  | cons e es ih =>
    rw [List.map_cons, List.nodup_cons] at distinct
    rw [List.find?_cons]
    rcases List.mem_cons.mp mem with rfl | later
    · simp
    · have other : (e.2 == letter) = false := by
        rw [beq_eq_false_iff_ne]
        rintro rfl
        exact distinct.1 (List.mem_map_of_mem (f := (·.2)) later)
      rw [other]
      exact ih later distinct.2

/-- Without a short escape a character is neither the quote nor the backslash. -/
theorem ne_of_letter?_none (h : t.letter? c = none) : c ≠ '"' ∧ c ≠ '\\' := by
  have absent : c ∉ t.written.map (·.1) := by
    intro mem
    obtain ⟨e, there, rfl⟩ := List.mem_map.mp mem
    have none := List.lookup_eq_none_iff.mp h e there
    simp at none
  exact ⟨fun e => absent (e ▸ t.complete _ (by simp)), fun e => absent (e ▸ t.complete _ (by simp))⟩

/-- **A reader undoes the short escapes of a table**: it stops at the closing quote, takes an escape
for its character, and a character without one as it stands if it `stays`. -/
structure Undoes (t : Escapes) (stays : Char → Prop)
    (scan : List Char → Option (List Char × List Char)) : Prop where
  close : ∀ rest, scan ('"' :: rest) = some ([], rest)
  short : ∀ {c letter}, t.char? letter = some c → ∀ rest,
    scan ('\\' :: letter :: rest) = (scan rest).map fun p => (c :: p.1, p.2)
  plain : ∀ {c}, c ≠ '"' → c ≠ '\\' → stays c → ∀ rest,
    scan (c :: rest) = (scan rest).map fun p => (c :: p.1, p.2)

namespace Undoes

variable {stays : Char → Prop} {scan : List Char → Option (List Char × List Char)}
  {other : Char → List Char}

/-- **A character is read back as it is written**, if this holds of those that do not stay as they
are and have no short escape. -/
theorem char (u : t.Undoes stays scan)
    (special : ∀ c, t.letter? c = none → other c = [c] ∧ stays c ∨
      ∀ rest, scan (other c ++ rest) = (scan rest).map fun p => (c :: p.1, p.2))
    (c : Char) (rest : List Char) :
    scan (t.write other c ++ rest) = (scan rest).map fun p => (c :: p.1, p.2) := by
  rcases t.write_cases other c with ⟨letter, h, e⟩ | ⟨h, e⟩ <;> rw [e]
  · exact u.short (char?_of_letter? h) rest
  · rcases special c h with ⟨alone, stay⟩ | back
    · rw [alone]
      obtain ⟨quote, backslash⟩ := ne_of_letter?_none h
      exact u.plain quote backslash stay rest
    · exact back rest

/-- **A text is read back up to its closing quote.** -/
theorem text (u : t.Undoes stays scan)
    (special : ∀ c, t.letter? c = none → other c = [c] ∧ stays c ∨
      ∀ rest, scan (other c ++ rest) = (scan rest).map fun p => (c :: p.1, p.2))
    (cs rest : List Char) : scan (cs.flatMap (t.write other) ++ '"' :: rest) = some (cs, rest) := by
  induction cs with
  | nil => exact u.close rest
  | cons c cs ih =>
    rw [List.flatMap_cons, List.append_assoc, u.char special, ih]
    rfl

end Undoes

end Escapes

end ServiceHealth.Text
