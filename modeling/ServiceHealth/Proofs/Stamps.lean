import Mathlib.Data.List.Basic
import ServiceHealth.Proofs.Calendar
import ServiceHealth.Proofs.Collation
import ServiceHealth.Proofs.Documents
import ServiceHealth.Time.Reader

/-!
# The time of a report

The time in the text of a report is read back as calendar fields, and the fields as seconds. What
the text leaves out is the fraction of the second; the second that is added at the end of a minute
is the sixtieth. As long as the year has four digits every number has its place in the text, so the
texts come in the order of the times.

* `Fields.read?_chars`: **fields are read back**, whatever the year is.
* `Fields.chars_lt_iff`: texts of years with four digits are in the order of their fields.
* `Stamp.fields_seconds`, `Stamp.fields_leap`: which second the fields denote.
* `Stamp.fields_earlier_iff`: fields are in the order of the times.
* `timestamp_denotes_second`: **the time of a report is the right second**.
-/

namespace ServiceHealth

namespace Time

namespace Fields

/-! ## 1. Texts -/

/-- A day that exists and a time of day, perhaps in a leap second. -/
structure IsCalendar (f : Fields) : Prop where
  date : f.date.isValid = true
  hour : f.hour ≤ 23
  minute : f.minute ≤ 59
  second : f.second ≤ 60

/-- The month and the day of a date have at most two digits. -/
theorem IsCalendar.short {f : Fields} (h : f.IsCalendar) :
    f.date.month < 100 ∧ f.date.day < 100 := by
  obtain ⟨low, high, -, last⟩ := Date.isValid_iff.mp h.date
  have days : Date.lengthOfMonth f.date.monthNumber ≤ 31 := by
    unfold Date.lengthOfMonth daysInMonth
    split
    · split <;> decide
    · split <;> decide
  omega

/-- The characters after the year. -/
def tail (f : Fields) : List Char :=
  '-' :: (Decimal.padded 2 f.date.month ++ '-' :: (Decimal.padded 2 f.date.day ++
    'T' :: (Decimal.padded 2 f.hour ++ ':' :: (Decimal.padded 2 f.minute ++
      ':' :: (Decimal.padded 2 f.second ++ ['Z'])))))

/-- The characters of calendar fields. -/
def chars (f : Fields) : List Char := Stamp.yearText f.date.year ++ f.tail

/-- **A stamp is written by its fields.** -/
theorem text_eq (t : Stamp) : t.text = String.ofList t.fields.chars := by
  simp [Stamp.text, Stamp.chars, chars, tail]

theorem year?_yearText (year : Int) : year? (Stamp.yearText year) = some year := by
  unfold Stamp.yearText
  split
  · rename_i four
    obtain ⟨c, cs, digits⟩ := List.exists_cons_of_ne_nil (Log.padded_ne_nil 4 year.toNat)
    have first : c.isDigit = true :=
      Log.isDigit_padded (by rw [digits]; exact List.mem_cons_self)
    have unsigned : year? (c :: cs) = Log.integer? (c :: cs) := by
      unfold year?
      split
      · rename_i e
        cases e
        cases first
      · rfl
    rw [digits, unsigned, Log.integer?_of_digit first, ← digits, Log.natural?_padded]
    show some (year.toNat : Int) = some year
    rw [Int.toNat_of_nonneg four.1]
  · split
    · show Log.integer? ('-' :: Decimal.padded 4 year.natAbs) = some year
      rw [Log.integer?, Log.natural?_padded]
      show some (-(year.natAbs : Int)) = some year
      rw [Option.some.injEq]
      omega
    · rw [year?, Log.natural?_padded, Option.map_some, Option.some.injEq]
      omega

/-- A number with two digits is read back. -/
theorem padded_two {n : Nat} (h : n < 100) :
    ∃ c d, Decimal.padded 2 n = [c, d] ∧ Log.natural? [c, d] = some n := by
  obtain ⟨c, d, digits⟩ := List.length_eq_two.mp (Log.length_padded (by decide) h)
  exact ⟨c, d, digits, by rw [← digits, Log.natural?_padded]⟩

/-- **Fields are read back**, whatever the year is. -/
theorem read?_chars {f : Fields} (h : f.IsCalendar) : read? (String.ofList f.chars) = some f := by
  obtain ⟨m, m', month, readMonth⟩ := padded_two h.short.1
  obtain ⟨d, d', day, readDay⟩ := padded_two h.short.2
  obtain ⟨n, n', hour, readHour⟩ := padded_two (Nat.lt_of_le_of_lt h.hour (by decide))
  obtain ⟨k, k', minute, readMinute⟩ := padded_two (Nat.lt_of_le_of_lt h.minute (by decide))
  obtain ⟨x, x', second, readSecond⟩ := padded_two (Nat.lt_of_le_of_lt h.second (by decide))
  have tail : f.tail =
      ['-', m, m', '-', d, d', 'T', n, n', ':', k, k', ':', x, x', 'Z'] := by
    unfold tail
    rw [month, day, hour, minute, second]
    rfl
  have start : f.chars.length - tailLength = (Stamp.yearText f.date.year).length := by
    unfold chars tailLength
    rw [List.length_append, tail]
    exact Nat.add_sub_cancel _ 16
  unfold read?
  dsimp only
  rw [String.toList_ofList, start]
  unfold chars
  rw [List.drop_left, List.take_left, tail]
  simp only [year?_yearText, readMonth, readDay, readHour, readMinute, readSecond]
  rfl

/-! ## 2. Their order -/

/-- The minute of the day. -/
def minutes (f : Fields) : Nat := 60 * f.hour + f.minute

/-- Fields come before others: by the day, then by the minute of the day, then by the second. -/
def Earlier (f g : Fields) : Prop :=
  f.date.Earlier g.date ∨
    f.date = g.date ∧ (f.minutes < g.minutes ∨ f.minutes = g.minutes ∧ f.second < g.second)

/-- A year with four digits. -/
def HasPlainYear (f : Fields) : Prop := 0 ≤ f.date.year ∧ f.date.year ≤ 9999

section Order

variable {f g : Fields}

theorem yearText_plain (plain : f.HasPlainYear) :
    Stamp.yearText f.date.year = Decimal.padded 4 f.date.year.toNat := if_pos plain

/-- Padded numerals of one length are read before what follows them. -/
theorem padded_append_lt {width n m : Nat} (pos : 0 < width) (hn : n < Nat.pow 10 width)
    (hm : m < Nat.pow 10 width) (c : Char) (rest rest' : List Char) :
    Decimal.padded width n ++ c :: rest < Decimal.padded width m ++ c :: rest' ↔
      n < m ∨ n = m ∧ rest < rest' := by
  rw [Text.append_lt_append_iff
    ((Log.length_padded pos hn).trans (Log.length_padded pos hm).symm),
    Log.padded_lt_iff pos hn hm, Log.padded_inj, List.cons_lt_cons_iff]
  simp

/-- The characters of calendar fields are one byte each. -/
theorem chars_ascii (f : Fields) : ∀ c ∈ f.chars, c.toNat < 0x80 := by
  have digits : ∀ {width n : Nat} {c : Char}, c ∈ Decimal.padded width n → c.toNat < 0x80 :=
    fun mem => Nat.lt_of_le_of_lt
      (Char.isDigit_iff_toNat.mp (Log.isDigit_padded mem)).2 (by decide)
  have year : ∀ c ∈ Stamp.yearText f.date.year, c.toNat < 0x80 := by
    intro c mem
    unfold Stamp.yearText at mem
    split at mem
    · exact digits mem
    · rcases List.mem_cons.mp mem with rfl | digit
      · split <;> decide
      · exact digits digit
  intro c mem
  simp only [chars, tail, List.mem_append, List.mem_cons, List.not_mem_nil, or_false] at mem
  rcases mem with digit | rfl | digit | rfl | digit | rfl | digit | rfl | digit | rfl | digit | rfl
  · exact year c digit
  all_goals first | exact digits digit | decide

/-- **Texts of years with four digits are in the order of their fields.** -/
theorem chars_lt_iff (hf : f.IsCalendar) (hg : g.IsCalendar) (plain : f.HasPlainYear)
    (plain' : g.HasPlainYear) : f.chars < g.chars ↔ f.Earlier g := by
  have year : f.date.year.toNat < 10000 ∧ g.date.year.toNat < 10000 := by
    unfold HasPlainYear at plain plain'
    omega
  have month := And.intro hf.short.1 hg.short.1
  have day := And.intro hf.short.2 hg.short.2
  have minute := hf.minute
  have minute' := hg.minute
  have short : ∀ {n most : Nat}, n ≤ most → most < 100 → n < Nat.pow 10 2 := Nat.lt_of_le_of_lt
  unfold chars tail
  rw [yearText_plain plain, yearText_plain plain',
    padded_append_lt (by decide) year.1 year.2, padded_append_lt (by decide) month.1 month.2,
    padded_append_lt (by decide) day.1 day.2,
    padded_append_lt (by decide) (short hf.hour (by decide)) (short hg.hour (by decide)),
    padded_append_lt (by decide) (short hf.minute (by decide)) (short hg.minute (by decide)),
    padded_append_lt (by decide) (short hf.second (by decide)) (short hg.second (by decide))]
  unfold Earlier Date.Earlier minutes
  rw [Date.eq_iff]
  unfold HasPlainYear at plain plain'
  simp only [List.lt_irrefl, and_false, or_false]
  omega

end Order

end Fields

namespace Stamp

/-! ## 3. Times -/

/-- The second that a leap second adds. -/
def leap (t : Stamp) : Nat := if Nat.pow 10 9 ≤ t.nanos then 1 else 0

/-- Nanoseconds that exceed a second occur only at the end of a minute. -/
def IsProper (t : Stamp) : Prop := t.nanos < Nat.pow 10 9 ∨ t.seconds % 60 = 59

/-- One time comes before another. -/
def Earlier (t t' : Stamp) : Prop :=
  t.seconds < t'.seconds ∨ t.seconds = t'.seconds ∧ t.nanos < t'.nanos

/-- A time without the fraction of its second. -/
def whole (t : Stamp) : Stamp := ⟨t.seconds, t.leap * Nat.pow 10 9⟩

theorem leap_le (t : Stamp) : t.leap ≤ 1 := by
  unfold leap
  split <;> decide

/-- The second after the end of a minute is the only leap second. -/
theorem IsProper.leap_cases {t : Stamp} (h : t.IsProper) :
    t.leap = 0 ∨ t.leap = 1 ∧ t.seconds % 60 = 59 := by
  unfold leap
  rcases h with short | last
  · exact .inl (if_neg (Nat.not_le.mpr short))
  · split
    · exact .inr ⟨rfl, last⟩
    · exact .inl rfl

section Fields

variable (t : Stamp)

theorem fields_days : t.fields.date.days = t.seconds / 86400 := (Date.ofDays_spec _).2

theorem fields_minutes : (t.fields.minutes : Int) = t.seconds % 86400 / 60 := by
  unfold fields Fields.minutes daySeconds
  dsimp only
  omega

theorem fields_second : (t.fields.second : Int) = t.seconds % 60 + t.leap := by
  show (((t.seconds % 86400).toNat % 60 + t.leap : Nat) : Int) = _
  omega

/-- **The fields of a time exist.** -/
theorem fields_calendar : t.fields.IsCalendar := by
  have second := t.fields_second
  have leap := t.leap_le
  refine ⟨(Date.ofDays_spec _).1, ?_, ?_, by omega⟩
  · show (t.seconds % 86400).toNat / 3600 ≤ 23
    omega
  · show (t.seconds % 86400).toNat / 60 % 60 ≤ 59
    omega

/-- **The fields denote the second**, or the one after it in a leap second. -/
theorem fields_seconds : t.fields.seconds = t.seconds + t.leap := by
  have days := t.fields_days
  have minutes := t.fields_minutes
  have second := t.fields_second
  unfold Fields.seconds daySeconds
  unfold Fields.minutes at minutes
  omega

/-- **The text of a time is read as its fields.** -/
theorem read?_text : Fields.read? t.text = some t.fields := by
  rw [Fields.text_eq, Fields.read?_chars t.fields_calendar]

/-- The second before the end of a minute is the one before its leap second. -/
theorem fields_last {t : Stamp} (last : t.seconds % 60 = 59) :
    fields ⟨t.seconds, 0⟩ = { t.fields with second := 59 } := by
  have second := fields_second ⟨t.seconds, 0⟩
  have none_added : leap ⟨t.seconds, 0⟩ = 0 := rfl
  rw [none_added, last] at second
  show (⟨t.fields.date, t.fields.hour, t.fields.minute, (fields ⟨t.seconds, 0⟩).second⟩
    : Time.Fields) = _
  rw [show (fields ⟨t.seconds, 0⟩).second = 59 by omega]

/-- Without the fraction the fields are the same. -/
theorem fields_whole : t.whole.fields = t.fields := by
  have same : t.whole.leap = t.leap := by
    unfold whole leap
    split <;> rfl
  show (⟨_, _, _, (t.seconds % 86400).toNat % 60 + t.whole.leap⟩ : Time.Fields) = _
  rw [same]
  rfl

end Fields

section Order

variable {t t' : Stamp} (h : t.IsProper) (h' : t'.IsProper)

include h h'

/-- **Fields are in the order of the times.** -/
theorem fields_earlier_iff : t.fields.Earlier t'.fields ↔ t.whole.Earlier t'.whole := by
  have date := Date.days_lt_iff t.fields_calendar.date t'.fields_calendar.date
  have date' := Date.days_inj t.fields_calendar.date t'.fields_calendar.date
  rw [t.fields_days, t'.fields_days] at date date'
  have minutes := t.fields_minutes
  have minutes' := t'.fields_minutes
  have second := t.fields_second
  have second' := t'.fields_second
  unfold Fields.Earlier Earlier whole
  rw [← date, ← date']
  have leap := h.leap_cases
  have leap' := h'.leap_cases
  have nanos : t.leap * Nat.pow 10 9 < t'.leap * Nat.pow 10 9 ↔ t.leap < t'.leap :=
    Nat.mul_lt_mul_right (by decide)
  dsimp only
  rw [nanos]
  omega

/-- **Times of one second have the same fields**, and no others have. -/
theorem fields_eq_iff : t.fields = t'.fields ↔ t.whole = t'.whole := by
  constructor
  · intro same
    have seconds := congrArg Fields.seconds same
    have second : (t.fields.second : Int) = t'.fields.second := by rw [same]
    rw [t.fields_seconds, t'.fields_seconds] at seconds
    rw [t.fields_second, t'.fields_second] at second
    have leap := h.leap_cases
    have leap' := h'.leap_cases
    unfold whole
    rw [show t.seconds = t'.seconds by omega, show t.leap = t'.leap by omega]
  · intro same
    rw [← t.fields_whole, ← t'.fields_whole, same]

/-- **Times of one second have the same text**, and no others have. -/
theorem text_eq_iff : t.text = t'.text ↔ t.whole = t'.whole := by
  rw [← fields_eq_iff h h']
  refine ⟨fun same => ?_, fun same => by rw [Fields.text_eq, Fields.text_eq, same]⟩
  have read := t.read?_text
  rw [same, t'.read?_text] at read
  exact (Option.some.inj read).symm

/-- **As long as years have four digits, texts are in the order of the times.** -/
theorem text_before_iff (plain : t.fields.HasPlainYear) (plain' : t'.fields.HasPlainYear) :
    Text.Before t.text t'.text ↔ t.whole.Earlier t'.whole := by
  rw [Fields.text_eq, Fields.text_eq,
    Text.before_ofList_iff (Fields.chars_ascii _) (Fields.chars_ascii _),
    Fields.chars_lt_iff t.fields_calendar t'.fields_calendar plain plain',
    fields_earlier_iff h h']

end Order

/-- An earlier time is in an earlier second or in the same one. -/
theorem Earlier.whole {t t' : Stamp} (h : t.Earlier t') :
    t.whole.Earlier t'.whole ∨ t.whole = t'.whole := by
  have leaps : t.nanos < t'.nanos → t.leap ≤ t'.leap := by
    intro nanos
    unfold leap
    split <;> split <;> omega
  rcases h with seconds | ⟨seconds, nanos⟩
  · exact .inl (.inl seconds)
  · rcases Nat.lt_or_eq_of_le (leaps nanos) with lt | eq
    · exact .inl (.inr ⟨seconds, Nat.mul_lt_mul_of_pos_right lt (by decide)⟩)
    · refine .inr ?_
      unfold Stamp.whole
      rw [seconds, eq]

end Stamp

end Time

namespace Health.Report

open Time

/-! ## 4. Reports -/

/-- The time stamp that the text of a report has. -/
def timestamp? (s : String) : Option String :=
  match Json.parse? s with
  | some (.object members) =>
    match members.lookup "timestamp" with
    | some (.text stamp) => some stamp
    | _ => none
  | _ => none

theorem timestamp?_text (r : Report) : timestamp? r.text = some r.time.text := by
  unfold timestamp?
  rw [parse?_text]
  rfl

/-- **The time of a report is the right second.** Days are counted from the first of January 1970,
every date being followed by the next of the calendar. Whatever the year is, the text of a report
has a time stamp that is read as a date that exists and as a time of day, and these denote the
second of the time, without its fraction; a leap second at the end of a minute is the sixtieth of
that minute. As long as the years have four digits, stamps are in the order of the times: they
differ if the seconds do, and then the earlier time has the smaller text. -/
theorem timestamp_denotes_second :
    (Date.days ⟨1970, 1, 1⟩ = 0 ∧ ∀ d : Date, d.isValid = true →
      d.next.isValid = true ∧ d.next.days = d.days + 1) ∧
    (∀ r : Report, ∃ stamp f, timestamp? r.text = some stamp ∧ Fields.read? stamp = some f ∧
      f.date.isValid = true ∧ f.hour ≤ 23 ∧ f.minute ≤ 59 ∧
      (r.time.nanos < Nat.pow 10 9 → f.second ≤ 59 ∧ f.seconds = r.time.seconds) ∧
      (Nat.pow 10 9 ≤ r.time.nanos → r.time.seconds % 60 = 59 → f.second = 60 ∧
        Fields.read? (Stamp.text ⟨r.time.seconds, 0⟩) = some { f with second := 59 })) ∧
    ∀ r r' : Report, r.time.IsProper → r'.time.IsProper →
      r.time.fields.HasPlainYear → r'.time.fields.HasPlainYear →
      ∃ stamp stamp', timestamp? r.text = some stamp ∧ timestamp? r'.text = some stamp' ∧
        (Text.Before stamp stamp' ↔ r.time.whole.Earlier r'.time.whole) ∧
        (stamp = stamp' ↔ r.time.whole = r'.time.whole) ∧
        (r.time.Earlier r'.time → Text.Before stamp stamp' ∨ stamp = stamp') := by
  refine ⟨⟨Date.epoch_days, fun d => Date.next_spec⟩, fun r => ?_,
    fun r r' proper proper' plain plain' => ?_⟩
  · have fields := r.time.fields_calendar
    have seconds := r.time.fields_seconds
    have second := r.time.fields_second
    refine ⟨_, _, r.timestamp?_text, r.time.read?_text, fields.date, fields.hour, fields.minute,
      fun short => ?_, fun long last => ?_⟩
    · have none_added : r.time.leap = 0 := if_neg (Nat.not_le.mpr short)
      rw [none_added] at seconds second
      omega
    · have added : r.time.leap = 1 := if_pos long
      rw [added, last] at second
      refine ⟨by omega, ?_⟩
      rw [Stamp.read?_text, Stamp.fields_last last]
  · have before := Stamp.text_before_iff proper proper' plain plain'
    have same := Stamp.text_eq_iff proper proper'
    refine ⟨_, _, r.timestamp?_text, r'.timestamp?_text, before, same, fun earlier => ?_⟩
    rw [before, same]
    exact earlier.whole

/-- A report in the leap second at the end of the year 2016. -/
def inLeapSecond : Report := ofResults ⟨1483228799, 1500000000⟩ ⟨true, false⟩ []

/-- A report at the start of the year after. -/
def atNewYear : Report := ofResults ⟨1483228800, 5⟩ ⟨true, false⟩ []

/-- **The leap second is the sixtieth of its minute**, and its stamp comes before that of the second
after it. -/
theorem leap_second_before_new_year :
    inLeapSecond.time.text = "2016-12-31T23:59:60Z" ∧
      atNewYear.time.text = "2017-01-01T00:00:00Z" ∧
      (∃ stamp f, timestamp? inLeapSecond.text = some stamp ∧ Fields.read? stamp = some f ∧
        f.second = 60) ∧
      ∃ stamp stamp', timestamp? inLeapSecond.text = some stamp ∧
        timestamp? atNewYear.text = some stamp' ∧ Text.Before stamp stamp' := by
  obtain ⟨-, denotes, ordered⟩ := timestamp_denotes_second
  obtain ⟨stamp, f, has, read, -, -, -, -, last⟩ := denotes inLeapSecond
  obtain ⟨before, after, hasBefore, hasAfter, order, -, -⟩ := ordered inLeapSecond atNewYear
    (.inr (by decide)) (.inl (by decide)) ⟨by decide, by decide⟩ ⟨by decide, by decide⟩
  exact ⟨by decide +kernel, by decide +kernel,
    ⟨stamp, f, has, read, (last (by decide) (by decide)).1⟩,
    before, after, hasBefore, hasAfter, order.mpr (.inl (by decide))⟩

/-- Half a second before the start of the year zero. -/
example : Stamp.text ⟨-62167219201, 500000000⟩ = "-0001-12-31T23:59:59Z" := by decide +kernel

end Health.Report

end ServiceHealth
