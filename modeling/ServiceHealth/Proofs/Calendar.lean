import ServiceHealth.Time.Calendar

/-!
# Days and dates

The days are counted month by month. Every month has a number, counted from the March of the year
zero, so that a month is followed by the one with the next number, and it begins where the month
before it ends; that is the whole calendar, with its leap years. A date is a month and one of its
days.

* `firstDay_succ`: **a month ends where the next one begins**.
* `days_lt_iff`: **dates come in the order of their days**.
* `ofDays_spec`: **every day has a date that exists, and it leads back to the day**.
* `next_spec`: the day after a date is the next of its month, or the first of the next one.
-/

namespace ServiceHealth.Time

/-! ## 1. Years -/

theorem isLeapYear_iff (year : Int) :
    isLeapYear year = true ↔ year % 4 = 0 ∧ (year % 100 ≠ 0 ∨ year % 400 = 0) := by
  simp [isLeapYear]

namespace Date

/-- **How long a year is that is counted from March**: a day longer if it ends with the February of
a leap year. The last year of a cycle ends with that of the four-hundredth. -/
theorem startOfYear_succ (cycle : Int) {year : Nat} (h : year < 400) :
    startOfYear (year + 1) + (year + 1) / 400 =
      startOfYear year + 365 + (if isLeapYear (400 * cycle + year + 1) then 1 else 0) := by
  have leap : isLeapYear (400 * cycle + year + 1) = true ↔
      (year + 1) % 4 = 0 ∧ ((year + 1) % 100 ≠ 0 ∨ (year + 1) % 400 = 0) := by
    rw [isLeapYear_iff]
    omega
  have four : (year + 1) / 4 = year / 4 + if (year + 1) % 4 = 0 then 1 else 0 := by
    split <;> omega
  have hundred : (year + 1) / 100 = year / 100 + if (year + 1) % 100 = 0 then 1 else 0 := by
    split <;> omega
  have cycles : (year + 1) / 400 = if (year + 1) % 400 = 0 then 1 else 0 := by
    split <;> omega
  have fewer : year / 100 ≤ year / 4 := by omega
  unfold startOfYear
  rw [four, hundred, cycles]
  simp only [leap]
  split <;> split <;> split <;> split <;> omega

/-- **The year of a day is the one that has begun and not ended.** -/
theorem yearOfCycle_spec {day : Nat} (h : day < cycleDays) :
    yearOfCycle day < 400 ∧ startOfYear (yearOfCycle day) ≤ day ∧
      day < startOfYear (yearOfCycle day + 1) + (yearOfCycle day + 1) / 400 := by
  unfold cycleDays at h
  by_cases last : day = 146096
  · subst last
    decide
  have before : day / 146096 = 0 := by omega
  obtain ⟨year, hy⟩ : ∃ year, year = yearOfCycle day := ⟨_, rfl⟩
  rw [← hy]
  unfold yearOfCycle at hy
  rw [before, Nat.sub_zero] at hy
  have century : year / 100 = day / 36524 := by
    have centuries : day / 36524 = 0 ∨ day / 36524 = 1 ∨ day / 36524 = 2 ∨ day / 36524 = 3 := by
      omega
    rcases centuries with e | e | e | e <;> rw [e] at hy ⊢ <;> omega
  have leaps : year / 4 ≤ day / 1460 := by omega
  unfold startOfYear
  refine ⟨by omega, by omega, ?_⟩
  by_cases ends : (year + 1) % 100 = 0
  · -- the last year of a century ends with it
    omega
  · have same : (year + 1) / 100 = year / 100 := by omega
    have leaps' : day / 1460 ≤ (year + 1) / 4 := by omega
    omega

/-! ## 2. Months -/

theorem monthOfYear_spec {day : Nat} (h : day < 366) :
    monthOfYear day < 12 ∧ startOfMonth (monthOfYear day) ≤ day ∧
      day < startOfMonth (monthOfYear day + 1) := by
  unfold startOfMonth monthOfYear
  omega

/-- The months from March to January have the same length in all years. -/
theorem startOfMonth_succ {month : Nat} (h : month < 11) (year : Int) :
    startOfMonth (month + 1) = startOfMonth month + daysInMonth year ((month + 2) % 12 + 1) := by
  have months : month = 0 ∨ month = 1 ∨ month = 2 ∨ month = 3 ∨ month = 4 ∨ month = 5 ∨
      month = 6 ∨ month = 7 ∨ month = 8 ∨ month = 9 ∨ month = 10 := by omega
  rcases months with rfl | rfl | rfl | rfl | rfl | rfl | rfl | rfl | rfl | rfl | rfl <;> rfl

theorem daysInMonth_february (year : Int) :
    daysInMonth year 2 = 28 + if isLeapYear year then 1 else 0 := by
  unfold daysInMonth
  rw [if_pos rfl]
  split <;> rfl

/-- The number of days of the month with a number. -/
def lengthOfMonth (number : Int) : Nat :=
  daysInMonth ((number + 2) / 12) ((number + 2) % 12 + 1).toNat

theorem lengthOfMonth_pos (number : Int) : 1 ≤ lengthOfMonth number := by
  unfold lengthOfMonth daysInMonth
  split
  · split <;> decide
  · split <;> decide

/-- The first day of the month with a number. -/
def firstDay (number : Int) : Int :=
  number / 12 / 400 * cycleDays
    + (startOfYear (number / 12 % 400).toNat + startOfMonth (number % 12).toNat : Nat)
    - epochOffset

section Months

variable (cycle : Int) {year month : Nat}

/-- Every number is that of a month of a year of a cycle. -/
theorem number_parts (number : Int) : ∃ (cycle : Int) (year month : Nat), year < 400 ∧
    month < 12 ∧ number = 12 * (400 * cycle + year) + month :=
  ⟨number / 12 / 400, (number / 12 % 400).toNat, (number % 12).toNat, by omega, by omega, by omega⟩

theorem firstDay_eq (hy : year < 400) (hm : month < 12) :
    firstDay (12 * (400 * cycle + year) + month) =
      cycle * cycleDays + (startOfYear year + startOfMonth month : Nat) - epochOffset := by
  have years : (12 * (400 * cycle + year) + month) / 12 = 400 * cycle + year := by omega
  have months : ((12 * (400 * cycle + year) + month) % 12).toNat = month := by omega
  have cycles : (400 * cycle + year) / 400 = cycle := by omega
  have rest : ((400 * cycle + year) % 400).toNat = year := by omega
  unfold firstDay
  rw [years, months, cycles, rest]

/-- The first day after a year that is counted from March. -/
theorem firstDay_year (hy : year < 400) :
    firstDay (12 * (400 * cycle + year) + 12) =
      cycle * cycleDays + (startOfYear (year + 1) + (year + 1) / 400 : Nat) - epochOffset := by
  by_cases last : year = 399
  · subst last
    have next := firstDay_eq (cycle + 1) (show 0 < 400 by decide) (show 0 < 12 by decide)
    have number : 12 * (400 * (cycle + 1) + (0 : Nat)) + (0 : Nat) =
      12 * (400 * cycle + (399 : Nat)) + 12 := by omega
    have starts : startOfYear 0 + startOfMonth 0 = 0 ∧ startOfYear 400 + 400 / 400 = cycleDays := by
      decide
    rw [number, starts.1] at next
    rw [next, starts.2]
    unfold cycleDays
    omega
  · have next := firstDay_eq cycle (show year + 1 < 400 by omega) (show 0 < 12 by decide)
    have number : 12 * (400 * cycle + (year + 1 : Nat)) + (0 : Nat) =
      12 * (400 * cycle + year) + 12 := by omega
    have start : startOfMonth 0 = 0 := rfl
    rw [number, start] at next
    rw [next]
    omega

end Months

/-- **A month ends where the next one begins.** -/
theorem firstDay_succ (number : Int) :
    firstDay (number + 1) = firstDay number + lengthOfMonth number := by
  obtain ⟨cycle, year, month, hy, hm, rfl⟩ := number_parts number
  have here := firstDay_eq cycle hy hm
  have name : ((12 * (400 * cycle + year) + month + 2) % 12 + 1).toNat = (month + 2) % 12 + 1 := by
    omega
  unfold lengthOfMonth
  rw [name, here]
  by_cases inYear : month < 11
  · have next := firstDay_eq cycle hy (show month + 1 < 12 by omega)
    rw [Int.natCast_succ, ← Int.add_assoc] at next
    rw [next, startOfMonth_succ inYear ((12 * (400 * cycle + year) + month + 2) / 12)]
    omega
  · -- the year ends with February
    obtain rfl : month = 11 := by omega
    have next := firstDay_year cycle hy
    have length := startOfYear_succ cycle hy
    have leap : (12 * (400 * cycle + year) + (11 : Nat) + 2) / 12 = 400 * cycle + year + 1 := by
      omega
    have february : (11 + 2) % 12 + 1 = 2 ∧ startOfMonth 11 = 337 := by decide
    rw [leap, february.1, february.2, daysInMonth_february]
    rw [length] at next
    have number : 12 * (400 * cycle + year) + (11 : Nat) + 1 = 12 * (400 * cycle + year) + 12 := by
      omega
    rw [number, next]
    omega

/-- Later months begin after earlier ones have ended. -/
theorem firstDay_le {number number' : Int} (h : number < number') :
    firstDay number + lengthOfMonth number ≤ firstDay number' := by
  obtain ⟨n, rfl⟩ : ∃ n : Nat, number' = number + 1 + n :=
    ⟨(number' - number - 1).toNat, by omega⟩
  clear h
  induction n with
  | zero =>
    have next : firstDay (number + 1 + (0 : Nat)) = firstDay number + lengthOfMonth number := by
      rw [Int.natCast_zero, Int.add_zero, firstDay_succ]
    exact Int.le_of_eq next.symm
  | succ n ih =>
    have next := firstDay_succ (number + 1 + n)
    rw [Int.natCast_succ, ← Int.add_assoc]
    omega

/-! ## 3. Dates -/

/-- The number of the month of a date. -/
def monthNumber (d : Date) : Int := 12 * d.year + d.month - 3

theorem lengthOfMonth_monthNumber {d : Date} (low : 1 ≤ d.month) (high : d.month ≤ 12) :
    lengthOfMonth d.monthNumber = daysInMonth d.year d.month := by
  have year : (d.monthNumber + 2) / 12 = d.year := by unfold monthNumber; omega
  have month : ((d.monthNumber + 2) % 12 + 1).toNat = d.month := by unfold monthNumber; omega
  unfold lengthOfMonth
  rw [year, month]

/-- **A date exists if there is such a month and the month has such a day.** -/
theorem isValid_iff {d : Date} : d.isValid = true ↔
    1 ≤ d.month ∧ d.month ≤ 12 ∧ 1 ≤ d.day ∧ d.day ≤ lengthOfMonth d.monthNumber := by
  unfold isValid
  simp only [Bool.and_eq_true, decide_eq_true_eq, and_assoc]
  constructor
  · rintro ⟨low, high, first, last⟩
    exact ⟨low, high, first, by rw [lengthOfMonth_monthNumber low high]; exact last⟩
  · rintro ⟨low, high, first, last⟩
    exact ⟨low, high, first, by rw [← lengthOfMonth_monthNumber low high]; exact last⟩

/-- The day of a date, by the first day of its month. -/
theorem days_eq {d : Date} (low : 1 ≤ d.month) (high : d.month ≤ 12) :
    d.days = firstDay d.monthNumber + (d.day - 1 : Nat) := by
  have year : d.monthNumber / 12 = if d.month ≤ 2 then d.year - 1 else d.year := by
    unfold monthNumber
    split <;> omega
  have month : (d.monthNumber % 12).toNat = if 2 < d.month then d.month - 3 else d.month + 9 := by
    unfold monthNumber
    split <;> omega
  unfold days firstDay
  rw [year, month]
  dsimp only
  omega

/-- **The month of a day is the one that has begun and not ended.** -/
theorem ofDays_month (n : Int) : 1 ≤ (ofDays n).month ∧ (ofDays n).month ≤ 12 ∧
    n = firstDay (ofDays n).monthNumber + ((ofDays n).day - 1 : Nat) ∧ 1 ≤ (ofDays n).day ∧
    n < firstDay ((ofDays n).monthNumber + 1) := by
  obtain ⟨cycle, hc⟩ : ∃ cycle, (n + epochOffset) / cycleDays = cycle := ⟨_, rfl⟩
  obtain ⟨day, hd⟩ : ∃ day, ((n + epochOffset) % cycleDays).toNat = day := ⟨_, rfl⟩
  have inside : day < cycleDays := by unfold cycleDays at *; omega
  have total : n = cycle * cycleDays + day - epochOffset := by unfold cycleDays at *; omega
  obtain ⟨year, hy⟩ : ∃ year, yearOfCycle day = year := ⟨_, rfl⟩
  obtain ⟨rest, hr⟩ : ∃ rest, day - startOfYear year = rest := ⟨_, rfl⟩
  obtain ⟨month, hm⟩ : ∃ month, monthOfYear rest = month := ⟨_, rfl⟩
  have date : ofDays n = ⟨400 * cycle + year + (if 10 ≤ month then 1 else 0),
      if month < 10 then month + 3 else month - 9, rest - startOfMonth month + 1⟩ := by
    unfold ofDays
    dsimp only
    rw [hc, hd, hy, hr, hm]
  obtain ⟨hy', begun, ended⟩ := yearOfCycle_spec inside
  rw [hy] at hy' begun ended
  have length := startOfYear_succ cycle hy'
  have short : rest < 366 := by split at length <;> omega
  obtain ⟨hm', begun', ended'⟩ := monthOfYear_spec short
  rw [hm] at hm' begun' ended'
  have number : (ofDays n).monthNumber = 12 * (400 * cycle + year) + month := by
    rw [date]
    unfold monthNumber
    dsimp only
    split <;> split <;> omega
  have first := firstDay_eq cycle hy' hm'
  have next : n < firstDay (12 * (400 * cycle + year) + month + 1) := by
    by_cases inYear : month < 11
    · have after := firstDay_eq cycle hy' (show month + 1 < 12 by omega)
      rw [Int.natCast_succ, ← Int.add_assoc] at after
      omega
    · have after := firstDay_year cycle hy'
      obtain rfl : month = 11 := by omega
      rw [Int.add_assoc]
      show n < firstDay (12 * (400 * cycle + year) + 12)
      omega
  rw [number]
  refine ⟨?_, ?_, ?_, ?_, next⟩ <;> rw [date] <;> dsimp only
  · split <;> omega
  · split <;> omega
  · omega
  · omega

/-- **Every day has a date that exists, and it leads back to the day.** -/
theorem ofDays_spec (n : Int) : (ofDays n).isValid = true ∧ (ofDays n).days = n := by
  obtain ⟨low, high, here, first, next⟩ := ofDays_month n
  have ends := firstDay_succ (ofDays n).monthNumber
  exact ⟨isValid_iff.mpr ⟨low, high, first, by omega⟩, by rw [days_eq low high, ← here]⟩

/-- One date comes before another: by the year, then by the month, then by the day. -/
def Earlier (d e : Date) : Prop :=
  d.year < e.year ∨ d.year = e.year ∧ (d.month < e.month ∨ d.month = e.month ∧ d.day < e.day)

section Order

variable {d e : Date}

theorem days_lt (hd : d.isValid = true) (he : e.isValid = true) (h : d.Earlier e) :
    d.days < e.days := by
  obtain ⟨low, high, first, last⟩ := isValid_iff.mp hd
  obtain ⟨low', high', first', last'⟩ := isValid_iff.mp he
  rw [days_eq low high, days_eq low' high']
  unfold Earlier at h
  by_cases k : d.monthNumber < e.monthNumber
  · have apart := firstDay_le k
    omega
  · have same : d.monthNumber = e.monthNumber := by unfold monthNumber at *; omega
    have day : d.day < e.day := by unfold monthNumber at *; omega
    rw [same]
    omega

theorem eq_iff : d = e ↔ d.year = e.year ∧ d.month = e.month ∧ d.day = e.day := by
  obtain ⟨year, month, day⟩ := d
  obtain ⟨year', month', day'⟩ := e
  rw [mk.injEq]

theorem earlier_or_eq_or_earlier (d e : Date) : d.Earlier e ∨ d = e ∨ e.Earlier d := by
  unfold Earlier
  rw [eq_iff]
  omega

/-- **Two dates of one day are the same.** -/
theorem days_inj (hd : d.isValid = true) (he : e.isValid = true) : d.days = e.days ↔ d = e := by
  refine ⟨fun same => ?_, fun same => by rw [same]⟩
  rcases earlier_or_eq_or_earlier d e with lt | eq | gt
  · exact absurd same (Int.ne_of_lt (days_lt hd he lt))
  · exact eq
  · exact absurd same.symm (Int.ne_of_lt (days_lt he hd gt))

/-- **Dates come in the order of their days.** -/
theorem days_lt_iff (hd : d.isValid = true) (he : e.isValid = true) :
    d.days < e.days ↔ d.Earlier e := by
  refine ⟨fun lt => ?_, days_lt hd he⟩
  rcases earlier_or_eq_or_earlier d e with h | rfl | h
  · exact h
  · exact absurd lt (Int.lt_irrefl _)
  · exact absurd (days_lt he hd h) (Int.lt_asymm lt)

end Order

/-- The date after a date: the next day of the month, or the first of the next month. -/
def next (d : Date) : Date :=
  if d.day < daysInMonth d.year d.month then { d with day := d.day + 1 }
  else if d.month < 12 then ⟨d.year, d.month + 1, 1⟩
  else ⟨d.year + 1, 1, 1⟩

/-- **The date after a date is that of the next day.** -/
theorem next_spec {d : Date} (h : d.isValid = true) :
    d.next.isValid = true ∧ d.next.days = d.days + 1 := by
  obtain ⟨low, high, first, last⟩ := isValid_iff.mp h
  have here := days_eq low high
  have length := lengthOfMonth_monthNumber low high
  by_cases inMonth : d.day < daysInMonth d.year d.month
  · have next : d.next = ⟨d.year, d.month, d.day + 1⟩ := if_pos inMonth
    have same : d.next.monthNumber = d.monthNumber := by rw [next]; rfl
    have after := days_eq (d := d.next) (by rw [next]; exact low) (by rw [next]; exact high)
    rw [same, next] at after
    rw [next] at same ⊢
    refine ⟨isValid_iff.mpr ⟨low, high, by dsimp only; omega, ?_⟩, ?_⟩
    · rw [same, length]
      exact inMonth
    · rw [after, here]
      dsimp only
      omega
  · -- the month is over, and the next one begins where it ends
    have atEnd : (d.day : Int) = lengthOfMonth d.monthNumber := by omega
    obtain ⟨low', high', day, number⟩ : 1 ≤ d.next.month ∧ d.next.month ≤ 12 ∧ d.next.day = 1 ∧
        d.next.monthNumber = d.monthNumber + 1 := by
      unfold next monthNumber
      rw [if_neg inMonth]
      split <;> dsimp only <;> omega
    have after := days_eq low' high'
    have start := firstDay_succ d.monthNumber
    refine ⟨isValid_iff.mpr ⟨low', high', by omega, ?_⟩, ?_⟩
    · rw [day]
      exact lengthOfMonth_pos _
    · rw [after, here, number, day, start]
      omega

end Date

end ServiceHealth.Time
