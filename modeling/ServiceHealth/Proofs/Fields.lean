import Mathlib.Data.List.TakeWhile
import ServiceHealth.Log.Reader
import ServiceHealth.Proofs.Quoting

/-!
# Fields can be read back

A line of fields tells the fields, however much the texts in it look like fields themselves. A text
is read up to its closing quote and any other value up to the next space, and no other value has a
space or begins with a quote.

* `integer?_intChars`, `truth?_boolChars`: a number or a truth value is read back.
* `span?_chars`: **a span is read back to the nanosecond**, although its text leaves out zeros.
* `Value.quoted_or_bare`: a value is quoted or has only characters that divide no fields.
* `Shown.meaning_ofValue`: every value says what it did before it was written.
* `fields?_field`, `readLine?_line`: one field at a time is read, and so the whole line.
* `line_read_back`: **fields cannot be forged**.
-/

namespace ServiceHealth.Log

/-! ## 1. Numbers and truth values -/

theorem isDigit_of_mem {n : Nat} {c : Char} (mem : c ∈ Nat.toDigits 10 n) : c.isDigit = true :=
  Nat.isDigit_of_mem_toDigits (by decide) (by decide) mem

/-- **A run of digits is read as its number.** -/
theorem natural?_digits {cs : List Char} (nonempty : cs ≠ []) (h : ∀ c ∈ cs, c.isDigit = true) :
    natural? cs = some (Nat.ofDigitChars 10 cs 0) :=
  if_pos ⟨nonempty, List.all_eq_true.mpr h⟩

theorem natural?_toDigits (n : Nat) : natural? (Nat.toDigits 10 n) = some n := by
  rw [natural?_digits Nat.toDigits_ne_nil fun _ => isDigit_of_mem, Nat.ofDigitChars_ten_toDigits]

/-- What is not a run of digits is no number. -/
theorem natural?_eq_none {cs : List Char} {c : Char} (mem : c ∈ cs) (h : c.isDigit = false) :
    natural? cs = none := by
  refine if_neg fun ⟨_, all⟩ => ?_
  rw [List.all_eq_true.mp all c mem] at h
  cases h

/-- What begins with a digit has no sign. -/
theorem integer?_of_digit {c : Char} (h : c.isDigit = true) (cs : List Char) :
    integer? (c :: cs) = (natural? (c :: cs)).map fun n => (n : Int) := by
  unfold integer?
  split
  · rename_i e
    cases e
    cases h
  · rfl

theorem integer?_toDigits (n : Nat) : integer? (Nat.toDigits 10 n) = some (n : Int) := by
  obtain ⟨c, cs, digits⟩ := List.exists_cons_of_ne_nil (Nat.toDigits_ne_nil (n := n) (b := 10))
  have first : c.isDigit = true := isDigit_of_mem (n := n) (by simp [digits])
  rw [digits, integer?_of_digit first, ← digits, natural?_toDigits]
  rfl

/-- **A signed number is read back.** -/
theorem integer?_intChars (n : Int) : integer? (intChars n) = some n := by
  unfold intChars
  by_cases h : n < 0
  · rw [decide_eq_true h]
    show integer? ('-' :: Nat.toDigits 10 n.natAbs) = some n
    rw [integer?, natural?_toDigits]
    show some (-(n.natAbs : Int)) = some n
    rw [Option.some.injEq]
    omega
  · rw [decide_eq_false h]
    show integer? (Nat.toDigits 10 n.natAbs) = some n
    rw [integer?_toDigits, Option.some.injEq]
    omega

theorem truth?_boolChars (b : Bool) : truth? (boolChars b) = some b := by cases b <;> decide

/-! ## 2. Spans -/

/-- The digits of a fraction as a number. -/
theorem ofDigitChars_zeros (k : Nat) (init : Nat) :
    Nat.ofDigitChars 10 (List.replicate k '0') init = init * Nat.pow 10 k := by
  induction k generalizing init with
  | zero => exact (Nat.mul_one init).symm
  | succ k ih =>
    have shifted : 10 * init * Nat.pow 10 k = init * Nat.pow 10 (k + 1) := by
      rw [Nat.mul_comm 10 init, Nat.mul_assoc, Nat.mul_comm 10]
      rfl
    rw [List.replicate_succ, Nat.ofDigitChars_cons, ih]
    exact shifted

/-- Zeros in front change no number. -/
theorem ofDigitChars_padded (width n : Nat) :
    Nat.ofDigitChars 10 (Decimal.padded width n) 0 = n := by
  unfold Decimal.padded
  rw [Nat.ofDigitChars_append, ofDigitChars_zeros, Nat.zero_mul, Nat.ofDigitChars_ten_toDigits]

theorem length_padded {width n : Nat} (pos : 0 < width) (h : n < Nat.pow 10 width) :
    (Decimal.padded width n).length = width := by
  have fits := (Nat.length_toDigits_le_iff (by decide) pos).mpr h
  unfold Decimal.padded
  rw [List.length_append, List.length_replicate, Nat.sub_add_cancel fits]

theorem isDigit_padded {width n : Nat} {c : Char} (mem : c ∈ Decimal.padded width n) :
    c.isDigit = true := by
  rcases List.mem_append.mp mem with zero | digit
  · rw [List.eq_of_mem_replicate zero]
    rfl
  · exact isDigit_of_mem digit

/-- **The fraction and the zeros that it lacks are the padded digits.** -/
theorem fraction_zeros (places n : Nat) :
    ∃ k, Decimal.padded places n = Time.Span.fraction places n ++ List.replicate k '0' := by
  have zeros : (Decimal.padded places n).reverse.takeWhile (· == '0') =
      List.replicate ((Decimal.padded places n).reverse.takeWhile (· == '0')).length '0' :=
    List.eq_replicate_iff.mpr
      ⟨rfl, fun c mem => beq_iff_eq.mp (List.mem_takeWhile_imp (p := (· == '0')) mem)⟩
  have parts := List.takeWhile_append_dropWhile (p := (· == '0'))
    (l := (Decimal.padded places n).reverse)
  rw [zeros, ← List.reverse_eq_iff, List.reverse_append, List.reverse_replicate] at parts
  exact ⟨_, parts.symm⟩

/-- **A fraction is not empty and has as many places as it needs**: with the zeros that it lacks
it is the number again. -/
theorem fraction_read {places n : Nat} (pos : 0 < n) (h : n < Nat.pow 10 places) :
    Time.Span.fraction places n ≠ [] ∧ (Time.Span.fraction places n).length ≤ places ∧
      (∀ c ∈ Time.Span.fraction places n, c.isDigit = true) ∧
      Nat.ofDigitChars 10 (Time.Span.fraction places n) 0
        * Nat.pow 10 (places - (Time.Span.fraction places n).length) = n := by
  have some_place : 0 < places := by
    rcases Nat.eq_zero_or_pos places with rfl | some_place
    · exact absurd pos (Nat.not_lt.mpr (Nat.le_of_lt_succ h))
    · exact some_place
  obtain ⟨k, padded⟩ := fraction_zeros places n
  have length := congrArg List.length padded
  rw [length_padded some_place h, List.length_append, List.length_replicate] at length
  have value := ofDigitChars_padded places n
  rw [padded, Nat.ofDigitChars_append, ofDigitChars_zeros] at value
  refine ⟨fun empty => ?_, by omega, fun c mem => ?_, ?_⟩
  · rw [empty, Nat.ofDigitChars_nil, Nat.zero_mul] at value
    omega
  · exact isDigit_padded (by rw [padded]; exact List.mem_append_left _ mem)
  · rw [show places - (Time.Span.fraction places n).length = k by omega, value]

/-- The units. -/
def units : List Time.Span.Scale := Time.Span.scales ++ [Time.Span.nanosecond]

theorem scale_mem (d : Time.Span) : d.scale ∈ units := by
  unfold Time.Span.scale
  cases e : Time.Span.scales.find? fun s => Nat.pow 10 s.places ≤ d.nanos with
  | none => exact List.mem_append_right _ List.mem_cons_self
  | some s => exact List.mem_append_left _ (List.mem_of_find?_eq_some e)

/-- **A unit is known by its symbol**, which begins neither a number nor a fraction. -/
theorem unit_symbol {s : Time.Span.Scale} (mem : s ∈ units) :
    unitPlaces? s.symbol = some s.places ∧
      ∃ c cs, s.symbol = c :: cs ∧ c.isDigit = false ∧ c ≠ '.' := by
  unfold units Time.Span.scales Time.Span.nanosecond at mem
  simp only [List.cons_append, List.nil_append, List.mem_cons, List.not_mem_nil, or_false] at mem
  rcases mem with rfl | rfl | rfl | rfl <;>
    exact ⟨by decide, _, _, rfl, by decide, by decide⟩

/-- A run of characters of a kind ends where another character begins. -/
theorem run_end {p : Char → Bool} {cs : List Char} (h : ∀ c ∈ cs, p c = true) {c : Char}
    (stop : p c = false) (rest : List Char) :
    (cs ++ c :: rest).takeWhile p = cs ∧ (cs ++ c :: rest).dropWhile p = c :: rest := by
  rw [List.takeWhile_append_of_pos h, List.dropWhile_append_of_pos h,
    List.takeWhile_cons_of_neg (by simp [stop]), List.dropWhile_cons_of_neg (by simp [stop])]
  exact ⟨List.append_nil cs, rfl⟩

/-- A span of whole units is read back. -/
theorem span?_whole {s : Time.Span.Scale} (mem : s ∈ units) (whole : Nat) :
    span? (Nat.toDigits 10 whole ++ s.symbol) = some ⟨whole * Nat.pow 10 s.places⟩ := by
  obtain ⟨places, c, cs, symbol, other, point⟩ := unit_symbol mem
  have parts := run_end (fun _ => isDigit_of_mem (n := whole)) other cs
  unfold span?
  rw [symbol] at places ⊢
  rw [parts.1, parts.2, natural?_toDigits]
  simp [point, places]

/-- A span with a fraction is read back. -/
theorem span?_part {s : Time.Span.Scale} (mem : s ∈ units) (whole : Nat) {part : List Char}
    (nonempty : part ≠ []) (digits : ∀ c ∈ part, c.isDigit = true)
    (short : part.length ≤ s.places) :
    span? (Nat.toDigits 10 whole ++ '.' :: (part ++ s.symbol)) =
      some ⟨whole * Nat.pow 10 s.places
        + Nat.ofDigitChars 10 part 0 * Nat.pow 10 (s.places - part.length)⟩ := by
  obtain ⟨places, c, cs, symbol, other, -⟩ := unit_symbol mem
  have parts := run_end (fun _ => isDigit_of_mem (n := whole)) (c := '.') rfl (part ++ s.symbol)
  have parts' := run_end digits other cs
  unfold span?
  rw [parts.1, parts.2, natural?_toDigits]
  rw [symbol] at places ⊢
  simp [parts'.1, parts'.2, places, natural?_digits nonempty digits, short]

/-- **A span is read back to the nanosecond.** -/
theorem span?_chars (d : Time.Span) : span? d.chars = some d := by
  have whole_and_part := Nat.div_add_mod' d.nanos (Nat.pow 10 d.scale.places)
  unfold Time.Span.chars
  dsimp only
  split
  · rename_i none_left
    rw [none_left, Nat.add_zero] at whole_and_part
    rw [span?_whole (scale_mem d), whole_and_part]
  · rename_i part
    obtain ⟨nonempty, short, digits, value⟩ := fraction_read (Nat.pos_of_ne_zero part)
      (Nat.mod_lt d.nanos (Nat.pow_pos (show 0 < 10 by decide)))
    rw [span?_part (scale_mem d) _ nonempty digits short, value, whole_and_part]

/-! ## 3. Values -/

/-- What values that are not quoted have beside digits. -/
def bareMarks : List Char :=
  ['-', '.', 'N', 'a', 'e', 'f', 'i', 'l', 'm', 'n', 'r', 's', 't', 'u', 'µ']

/-- The characters of the values that are not quoted. -/
def isBare (c : Char) : Bool := c.isDigit || bareMarks.contains c

theorem isBare_of_isDigit {c : Char} (h : c.isDigit = true) : isBare c = true := by
  unfold isBare
  rw [h, Bool.true_or]

/-- **Such a character divides no fields, opens no quotes and is printable.** -/
theorem isBare_plain {c : Char} (h : isBare c = true) :
    c ≠ ' ' ∧ c ≠ '"' ∧ Text.isPrintable c = true := by
  have marks : (bareMarks.all fun d => d != ' ' && d != '"' && Text.isPrintable d) = true := by
    decide +kernel
  rcases Bool.or_eq_true_iff.mp h with digit | mark
  · obtain ⟨low, high⟩ := Char.isDigit_iff_toNat.mp digit
    refine ⟨?_, ?_, Text.isPrintable_of_ascii (Nat.le_trans (by decide) low)
      (Nat.lt_of_le_of_lt high (by decide))⟩ <;> rintro rfl <;> cases digit
  · have plain := List.all_eq_true.mp marks c (List.contains_iff_mem.mp mark)
    simpa [and_assoc] using plain

theorem isBare_digits {n : Nat} {c : Char} (mem : c ∈ Nat.toDigits 10 n) : isBare c = true :=
  isBare_of_isDigit (isDigit_of_mem mem)

theorem isBare_padded {width n : Nat} {c : Char} (mem : c ∈ Decimal.padded width n) :
    isBare c = true :=
  isBare_of_isDigit (isDigit_padded mem)

theorem isBare_sign {negative : Bool} {c : Char} (mem : c ∈ Decimal.sign negative) :
    isBare c = true := by
  cases negative
  · cases mem
  · rw [List.mem_singleton.mp mem]
    decide

theorem isBare_scaled (x : Decimal.Scaled) : ∀ c ∈ x.text, isBare c = true := by
  unfold Decimal.Scaled.text
  dsimp only
  intro c mem
  split at mem
  · exact isBare_digits mem
  · rcases List.mem_append.mp mem with whole | part
    · exact isBare_digits whole
    · rcases List.mem_cons.mp part with rfl | part
      · decide
      · exact isBare_padded part

theorem isBare_reading (x : Decimal.Reading) : ∀ c ∈ x.text, isBare c = true := by
  intro c mem
  cases x with
  | nan => exact List.all_eq_true.mp (show ['N', 'a', 'N'].all isBare = true by decide) c mem
  | infinite negative =>
    rcases List.mem_append.mp mem with sign | name
    · exact isBare_sign sign
    · exact List.all_eq_true.mp (show ['i', 'n', 'f'].all isBare = true by decide) c name
  | zero negative =>
    rcases List.mem_append.mp mem with sign | zero
    · exact isBare_sign sign
    · rw [List.mem_singleton.mp zero]
      decide
  | finite negative value =>
    rcases List.mem_append.mp mem with sign | digits
    · exact isBare_sign sign
    · exact isBare_scaled value c digits

theorem isBare_symbol {s : Time.Span.Scale} (mem : s ∈ units) :
    ∀ c ∈ s.symbol, isBare c = true := by
  have symbols : (units.all fun s => s.symbol.all isBare) = true := by decide
  exact List.all_eq_true.mp (List.all_eq_true.mp symbols s mem)

theorem isBare_span (d : Time.Span) : ∀ c ∈ d.chars, isBare c = true := by
  unfold Time.Span.chars
  dsimp only
  intro c mem
  split at mem
  · rcases List.mem_append.mp mem with whole | symbol
    · exact isBare_digits whole
    · exact isBare_symbol (scale_mem d) c symbol
  · simp only [List.mem_append, List.mem_cons] at mem
    rcases mem with whole | rfl | part | symbol
    · exact isBare_digits whole
    · decide
    · obtain ⟨k, padded⟩ := fraction_zeros d.scale.places (d.nanos % Nat.pow 10 d.scale.places)
      exact isBare_padded (by rw [padded]; exact List.mem_append_left _ part)
    · exact isBare_symbol (scale_mem d) c symbol

/-- **Every value is a quoted text or consists of bare characters.** -/
theorem Value.quoted_or_bare (v : Value) :
    (∃ s, v = .text s) ∨ (Shown.ofValue v = .bare v.chars ∧ ∀ c ∈ v.chars, isBare c = true) := by
  cases v with
  | text s => exact .inl ⟨s, rfl⟩
  | int n =>
    refine .inr ⟨rfl, fun c mem => ?_⟩
    rcases List.mem_append.mp mem with sign | digits
    · exact isBare_sign sign
    · exact isBare_digits digits
  | nat n => exact .inr ⟨rfl, fun _ => isBare_digits⟩
  | float x => exact .inr ⟨rfl, isBare_reading x.reading⟩
  | bool b =>
    have name : (boolChars b).all isBare = true := by cases b <;> decide
    exact .inr ⟨rfl, List.all_eq_true.mp name⟩
  | span d => exact .inr ⟨rfl, isBare_span d⟩

/-- **No value has a raw control character**, whatever its text: all of it is printable. -/
theorem Value.chars_printable (v : Value) : ∀ c ∈ v.chars, Text.isPrintable c = true := by
  rcases v.quoted_or_bare with ⟨s, rfl⟩ | ⟨-, bare⟩
  · exact Text.Quoted.isPrintable_encode s.toList
  · exact fun c mem => (isBare_plain (bare c mem)).2.2

/-- A span is neither a number nor a truth value: it begins with a digit and ends otherwise. -/
theorem span_only (d : Time.Span) : integer? d.chars = none ∧ truth? d.chars = none := by
  obtain ⟨first, digits, whole⟩ := List.exists_cons_of_ne_nil
    (Nat.toDigits_ne_nil (n := d.nanos / Nat.pow 10 d.scale.places) (b := 10))
  have digit : first.isDigit = true := isDigit_of_mem (by rw [whole]; exact List.mem_cons_self)
  obtain ⟨-, c, cs, symbol, other, -⟩ := unit_symbol (scale_mem d)
  obtain ⟨rest, chars, last⟩ : ∃ rest, d.chars = first :: rest ∧ c ∈ d.chars := by
    unfold Time.Span.chars
    dsimp only
    rw [whole, symbol]
    split
    · exact ⟨_, rfl, by simp⟩
    · exact ⟨_, rfl, by simp⟩
  constructor
  · rw [chars, integer?_of_digit digit, ← chars, natural?_eq_none last other]
    rfl
  · unfold truth?
    rw [chars, if_neg, if_neg] <;> rintro e <;> cases (List.cons.inj e).1 <;> cases digit

theorem integer?_boolChars (b : Bool) : integer? (boolChars b) = none := by cases b <;> decide

/-- **Every value says what it did before it was written.** -/
theorem Shown.meaning_ofValue (v : Value) : (Shown.ofValue v).meaning = v.meaning := by
  cases v with
  | text s => rfl
  | int n =>
    show bareMeaning (intChars n) = .number n
    unfold bareMeaning
    rw [integer?_intChars]
  | nat n =>
    show bareMeaning (Nat.toDigits 10 n) = .number n
    unfold bareMeaning
    rw [integer?_toDigits]
  | float x => rfl
  | bool b =>
    show bareMeaning (boolChars b) = .truth b
    unfold bareMeaning
    rw [integer?_boolChars, truth?_boolChars]
  | span d =>
    show bareMeaning d.chars = .span d
    unfold bareMeaning
    rw [(span_only d).1, (span_only d).2, span?_chars]

/-! ## 4. Lines -/

/-- The rest of a line after a value: nothing, or a space and another field. -/
def IsEnd (rest : List Char) : Prop := rest = [] ∨ ∃ more, rest = ' ' :: more

/-- What does not begin with a quote is read up to the next space. -/
theorem shown?_bare {cs : List Char} (h : ∀ c ∈ cs, isBare c = true) {rest : List Char}
    (ends : IsEnd rest) : shown? (cs ++ rest) = some (.bare cs, rest) := by
  have inside : ∀ c ∈ cs, (c != ' ') = true := fun c mem =>
    bne_iff_ne.mpr (isBare_plain (h c mem)).1
  have split : (cs ++ rest).takeWhile (· != ' ') = cs ∧
      (cs ++ rest).dropWhile (· != ' ') = rest := by
    rw [List.takeWhile_append_of_pos inside, List.dropWhile_append_of_pos inside]
    rcases ends with rfl | ⟨more, rfl⟩ <;> simp
  have start : ∀ more, cs ++ rest ≠ '"' :: more := by
    intro more e
    cases cs with
    | nil => rcases ends with rfl | ⟨_, rfl⟩ <;> cases e
    | cons c cs => exact (isBare_plain (h c List.mem_cons_self)).2.1 (List.cons.inj e).1
  rw [shown?, split.1, split.2]
  exact fun more => start more

/-- **A value is read up to its end**, whatever follows it. -/
theorem shown?_value (v : Value) {rest : List Char} (ends : IsEnd rest) :
    shown? (v.chars ++ rest) = some (Shown.ofValue v, rest) := by
  rcases v.quoted_or_bare with ⟨s, rfl⟩ | ⟨shown, bare⟩
  · have body := Text.Quoted.scan_body s.toList rest
    show (Text.Quoted.scan .plain ((Text.Quoted.body s.toList ++ ['"']) ++ rest)).map _ = _
    rw [List.append_assoc, List.singleton_append, body, Option.map_some, String.ofList_toList]
    rfl
  · rw [shown?_bare bare ends, shown]

/-- A field as it is read: its key and its value. -/
def Field.shown (f : Field) : String × Shown := (f.key, Shown.ofValue f.value)

/-- A key that no equals sign cuts short. -/
def Field.HasPlainKey (f : Field) : Prop := '=' ∉ f.key.toList

/-- **A key is read up to its equals sign.** -/
theorem key_read {key : List Char} (h : '=' ∉ key) (rest : List Char) :
    (key ++ '=' :: rest).takeWhile (· != '=') = key ∧
      (key ++ '=' :: rest).dropWhile (· != '=') = '=' :: rest :=
  run_end (p := (· != '=')) (fun _ mem => bne_iff_ne.mpr fun e => h (e ▸ mem)) rfl rest

/-- **One field at a time is read** from the front of a line. -/
theorem fields?_field {f : Field} (h : f.HasPlainKey) (fuel : Nat) {rest : List Char}
    (ends : IsEnd rest) :
    fields? (fuel + 1) (f.chars ++ rest) =
      match rest with
      | [] => some [f.shown]
      | _ :: more => (fields? fuel more).map (f.shown :: ·) := by
  have chars : f.chars ++ rest = f.key.toList ++ '=' :: (f.value.chars ++ rest) := by
    simp [Field.chars]
  have key := key_read h (f.value.chars ++ rest)
  rw [fields?, chars, key.1, key.2, String.ofList_toList]
  dsimp only
  rw [shown?_value f.value ends]
  rcases ends with rfl | ⟨more, rfl⟩ <;> rfl

/-- **The fields of a line are read in their order**, with as much fuel as there are fields. -/
theorem fields?_lineChars {fields : List Field} (nonempty : fields ≠ [])
    (h : ∀ f ∈ fields, f.HasPlainKey) {fuel : Nat} (enough : fields.length ≤ fuel) :
    fields? fuel (lineChars fields) = some (fields.map Field.shown) := by
  induction fields generalizing fuel with
  | nil => exact absurd rfl nonempty
  | cons f rest ih =>
    obtain ⟨fuel, rfl⟩ : ∃ k, fuel = k + 1 := ⟨fuel - 1, by simp at enough; omega⟩
    have plain := h f List.mem_cons_self
    rw [lineChars_cons]
    by_cases last : rest = []
    · subst last
      rw [if_pos rfl, fields?_field plain fuel (.inl rfl)]
      rfl
    · rw [if_neg last, fields?_field plain fuel (.inr ⟨_, rfl⟩)]
      dsimp only
      rw [ih last (fun g mem => h g (List.mem_cons_of_mem f mem)) (by simpa using enough)]
      rfl

theorem length_le_lineChars (fields : List Field) : fields.length ≤ (lineChars fields).length := by
  induction fields with
  | nil => exact Nat.le_refl 0
  | cons f rest ih =>
    have own : f.chars.length = f.key.toList.length + (f.value.chars.length + 1) := by
      simp [Field.chars]
    rw [lineChars_cons, List.length_cons, List.length_append, own]
    split
    · rename_i last
      rw [last, List.length_nil]
      omega
    · rw [List.length_cons]
      omega

/-- **A line gives back its fields.** -/
theorem readLine?_line {fields : List Field} (h : ∀ f ∈ fields, f.HasPlainKey) :
    readLine? (line fields) = some (fields.map Field.shown) := by
  unfold readLine? line
  rw [String.toList_ofList]
  cases fields with
  | nil => rfl
  | cons f rest =>
    have length := length_le_lineChars (f :: rest)
    have nonempty : lineChars (f :: rest) ≠ [] := by
      intro empty
      rw [empty] at length
      cases length
    rw [if_neg nonempty]
    exact fields?_lineChars (List.cons_ne_nil f rest) h length

/-- **Fields cannot be forged**: a line is read back to as many fields as were written, in the
same order and with the same keys; every value says what it said, a text by its characters, a
span to the nanosecond and a floating-point number by its printed text; no value has a control
character of its own; and only such fields have this line. -/
theorem line_read_back (fields : List Field) (h : ∀ f ∈ fields, '=' ∉ f.key.toList) :
    (readLine? (line fields) =
        some (fields.map fun f => (f.key, Shown.ofValue f.value)) ∧
      ∀ f ∈ fields, (Shown.ofValue f.value).meaning = f.value.meaning) ∧
    (∀ f ∈ fields, ∀ c ∈ f.value.chars, Text.isPrintable c = true ∧ ¬ Text.IsControl c) ∧
    ∀ others : List Field, (∀ f ∈ others, '=' ∉ f.key.toList) → line others = line fields →
      others.map (fun f => (f.key, Shown.ofValue f.value)) =
          fields.map (fun f => (f.key, Shown.ofValue f.value)) ∧
        others.map (fun f => (f.key, f.value.meaning)) =
          fields.map fun f => (f.key, f.value.meaning) := by
  have meanings : ∀ fs : List Field, fs.map (fun f => (f.key, f.value.meaning)) =
      (fs.map Field.shown).map fun p => (p.1, p.2.meaning) := by
    intro fs
    rw [List.map_map]
    exact List.map_congr_left fun f _ => by
      rw [Function.comp_apply, Field.shown, Shown.meaning_ofValue]
  refine ⟨⟨readLine?_line h, fun f _ => Shown.meaning_ofValue f.value⟩, fun f _ c mem => ?_,
    fun others plain same => ?_⟩
  · have printable := f.value.chars_printable c mem
    exact ⟨printable, Text.not_control_of_isPrintable printable⟩
  · have read := readLine?_line plain
    rw [same, readLine?_line h, Option.some.injEq] at read
    exact ⟨read.symm, by rw [meanings, meanings, read]⟩

/-- Three fields, the first of them with a text that looks like another field. -/
def forgery : List Field :=
  [⟨"user", .text "a\" admin=true\n"⟩, ⟨"took", .span ⟨1500000⟩⟩, ⟨"admin", .bool false⟩]

/-- **A text that looks like a field stays a text**, and the line break in it is escaped. -/
theorem forgery_read_back :
    line forgery = "user=\"a\\\" admin=true\\n\" took=1.5ms admin=false" ∧
      readLine? (line forgery) =
        some [("user", .quoted "a\" admin=true\n"), ("took", .bare ['1', '.', '5', 'm', 's']),
          ("admin", .bare ['f', 'a', 'l', 's', 'e'])] := by
  have plain : ∀ f ∈ forgery, '=' ∉ f.key.toList := by decide
  refine ⟨by decide +kernel, (line_read_back forgery plain).1.1.trans ?_⟩
  decide +kernel

end ServiceHealth.Log
