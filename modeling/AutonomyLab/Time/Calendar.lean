import Mathlib.Algebra.BigOperators.Group.List.Basic
import Mathlib.Data.String.Basic
import Mathlib.Data.Nat.Notation

/-!
# Times and their texts

A time of the Gregorian calendar in UTC, to the microsecond, with the instant it denotes
and the digits it is written with.  Fields of a fixed width are compared as their values
are, so texts of one layout are compared as the instants are.

* `pad`, `pad_lt_pad` — a number in a fixed number of digits.
* `DateTime` — a time that exists.
* `DateTime.second`, `DateTime.instant` — seconds and microseconds since the year 0.
* `DateTime.stamp` — the text up to the second.
* `stamp_lt_stamp` — stamps are in the order of the seconds.
-/

namespace Time

/-! ## Fields -/

def digit (d : ℕ) : Char := Char.ofNat (48 + d)

/-- The last `k` digits of a number. -/
def pad : ℕ → ℕ → List Char
  | 0, _ => []
  | k + 1, n => digit (n / 10 ^ k % 10) :: pad k (n % 10 ^ k)

@[simp] theorem length_pad (k n : ℕ) : (pad k n).length = k := by
  induction k generalizing n with
  | zero => rfl
  | succ k ih => rw [pad, List.length_cons, ih]

theorem digit_lt_digit {d d' : ℕ} (h : d < 10) (h' : d' < 10) : digit d < digit d' ↔ d < d' := by
  have hfin : ∀ i j : Fin 10, digit i < digit j ↔ i < j := by decide
  exact hfin ⟨d, h⟩ ⟨d', h'⟩

/-- Texts that start with parts of one length are compared by these first. -/
theorem append_lt_append {p q r s : List Char} (h : p.length = q.length) :
    p ++ r < q ++ s ↔ p < q ∨ p = q ∧ r < s := by
  induction p generalizing q with
  | nil =>
      rw [List.eq_nil_of_length_eq_zero h.symm]
      simp
  | cons c p ih =>
      cases q with
      | nil => cases h
      | cons d q =>
          rw [List.cons_append, List.cons_append, List.cons_lt_cons_iff, List.cons_lt_cons_iff,
            ih (Nat.succ.inj h), List.cons.injEq]
          tauto

/-- The order of two numbers, by their quotients and then by their remainders. -/
theorem lt_iff_div_mod {a b : ℕ} (B : ℕ) : a < b ↔ a / B < b / B ∨ a / B = b / B ∧ a % B < b % B := by
  have ha := Nat.div_add_mod a B
  have hb := Nat.div_add_mod b B
  rcases Nat.lt_trichotomy (a / B) (b / B) with hlt | heq | hgt
  · exact ⟨fun _ => .inl hlt, fun _ => Nat.lt_of_div_lt_div hlt⟩
  · rw [heq] at ha ⊢
    constructor
    · intro h
      exact .inr ⟨rfl, by omega⟩
    · rintro (h | ⟨-, h⟩)
      · exact absurd h (Nat.lt_irrefl _)
      · omega
  · have hle := Nat.lt_of_div_lt_div hgt
    constructor
    · intro h
      omega
    · rintro (h | ⟨h, -⟩) <;> omega

/-- Numbers of one width are compared by their digits. -/
theorem pad_lt_pad {k a b : ℕ} (ha : a < 10 ^ k) (hb : b < 10 ^ k) : pad k a < pad k b ↔ a < b := by
  induction k generalizing a b with
  | zero =>
      rw [Nat.pow_zero, Nat.lt_one_iff] at ha hb
      simp [pad, ha, hb]
  | succ k ih =>
      have hpos : 0 < 10 ^ k := Nat.pow_pos (by decide)
      have hqa : a / 10 ^ k < 10 := Nat.div_lt_of_lt_mul (by rwa [← Nat.pow_succ])
      have hqb : b / 10 ^ k < 10 := Nat.div_lt_of_lt_mul (by rwa [← Nat.pow_succ])
      have hsame : digit (a / 10 ^ k) = digit (b / 10 ^ k) ↔ a / 10 ^ k = b / 10 ^ k := by
        have hlt := digit_lt_digit hqa hqb
        have hgt := digit_lt_digit hqb hqa
        refine ⟨fun h => ?_, fun h => h ▸ rfl⟩
        rw [h] at hlt hgt
        have hirrefl := lt_irrefl (digit (b / 10 ^ k))
        rw [hlt] at hirrefl
        have hirrefl' := lt_irrefl (digit (b / 10 ^ k))
        rw [hgt] at hirrefl'
        omega
      rw [pad, pad, List.cons_lt_cons_iff, Nat.mod_eq_of_lt hqa, Nat.mod_eq_of_lt hqb,
        digit_lt_digit hqa hqb, hsame, ih (Nat.mod_lt _ hpos) (Nat.mod_lt _ hpos)]
      exact (lt_iff_div_mod (10 ^ k)).symm

theorem pad_inj {k a b : ℕ} (ha : a < 10 ^ k) (hb : b < 10 ^ k) : pad k a = pad k b ↔ a = b := by
  refine ⟨fun h => ?_, fun h => h ▸ rfl⟩
  have hlt := pad_lt_pad ha hb
  have hgt := pad_lt_pad hb ha
  rw [h] at hlt hgt
  have hirrefl := lt_irrefl (pad k b)
  have hnot := hirrefl
  rw [hlt] at hirrefl
  rw [hgt] at hnot
  omega

/-- A field is compared before what follows it. -/
theorem field_lt_field {k a b : ℕ} {c : Char} {r s : List Char} (ha : a < 10 ^ k) (hb : b < 10 ^ k) :
    pad k a ++ c :: r < pad k b ++ c :: s ↔ a < b ∨ a = b ∧ r < s := by
  have hlength : (pad k a).length = (pad k b).length := by rw [length_pad, length_pad]
  rw [append_lt_append hlength, pad_lt_pad ha hb, pad_inj ha hb, List.cons_lt_cons_self]

/-! ## The calendar -/

def isLeap (year : ℕ) : Bool := year % 4 = 0 ∧ (year % 100 ≠ 0 ∨ year % 400 = 0)

def daysInMonth (year month : ℕ) : ℕ :=
  if month = 2 then if isLeap year then 29 else 28
  else if month = 4 ∨ month = 6 ∨ month = 9 ∨ month = 11 then 30 else 31

/-- The days of a year before the first of a month. -/
def daysBeforeMonth (year : ℕ) : ℕ → ℕ
  | 0 => 0
  | month + 1 => daysBeforeMonth year month + if month = 0 then 0 else daysInMonth year month

/-- The days before the first of January. -/
def daysBeforeYear : ℕ → ℕ
  | 0 => 0
  | year + 1 => daysBeforeYear year + daysBeforeMonth year 13

theorem daysBeforeMonth_mono (year : ℕ) : Monotone (daysBeforeMonth year) :=
  monotone_nat_of_le_succ fun _ => Nat.le_add_right _ _

theorem daysBeforeYear_mono : Monotone daysBeforeYear :=
  monotone_nat_of_le_succ fun _ => Nat.le_add_right _ _

/-- A time in UTC that exists. -/
structure DateTime where
  year : ℕ
  month : ℕ
  day : ℕ
  hour : ℕ
  minute : ℕ
  second : ℕ
  microsecond : ℕ
  year_lt : year < 10000
  month_pos : 0 < month
  month_le : month ≤ 12
  day_pos : 0 < day
  day_le : day ≤ daysInMonth year month
  hour_lt : hour < 24
  minute_lt : minute < 60
  second_lt : second < 60
  microsecond_lt : microsecond < 1000000

namespace DateTime

variable (a b : DateTime)

/-- The days before the day, since the first of January of the year 0. -/
def dayNumber : ℕ := daysBeforeYear a.year + daysBeforeMonth a.year a.month + a.day

/-- The seconds of the day before the time. -/
def secondOfDay : ℕ := (a.hour * 60 + a.minute) * 60 + a.second

/-- The seconds since the year 0. -/
def seconds : ℕ := a.dayNumber * 86400 + a.secondOfDay

/-- The microseconds since the year 0. -/
def instant : ℕ := a.seconds * 1000000 + a.microsecond

theorem secondOfDay_lt : a.secondOfDay < 86400 := by
  have hhour := a.hour_lt
  have hminute := a.minute_lt
  have hsecond := a.second_lt
  unfold secondOfDay
  omega

theorem day_le_month : daysBeforeMonth a.year a.month + a.day ≤ daysBeforeMonth a.year (a.month + 1) := by
  have hmonth := a.month_pos
  have hday := a.day_le
  rw [daysBeforeMonth, if_neg (by omega)]
  omega

/-- `YYYY-MM-DD`. -/
def dateText : List Char := pad 4 a.year ++ '-' :: (pad 2 a.month ++ '-' :: pad 2 a.day)

/-- `HH:MM:SS`. -/
def timeText : List Char := pad 2 a.hour ++ ':' :: (pad 2 a.minute ++ ':' :: pad 2 a.second)

/-- `YYYY-MM-DDTHH:MM:SS`. -/
def stamp : List Char := a.dateText ++ 'T' :: a.timeText

@[simp] theorem length_dateText : a.dateText.length = 10 := by simp [dateText]

@[simp] theorem length_timeText : a.timeText.length = 8 := by simp [timeText]

@[simp] theorem length_stamp : a.stamp.length = 19 := by simp [stamp]

variable {a b}

theorem dayNumber_lt_of_year (h : a.year < b.year) : a.dayNumber < b.dayNumber := by
  have hmonth := daysBeforeMonth_mono a.year (by have := a.month_le; omega : a.month + 1 ≤ 13)
  have hday := a.day_le_month
  have hyear : daysBeforeYear a.year + daysBeforeMonth a.year 13 ≤ daysBeforeYear b.year :=
    daysBeforeYear_mono (Nat.succ_le_of_lt h)
  have hpos := b.day_pos
  unfold dayNumber
  omega

theorem dayNumber_lt_of_month (h : a.year = b.year) (h' : a.month < b.month) :
    a.dayNumber < b.dayNumber := by
  have hmonth : daysBeforeMonth a.year (a.month + 1) ≤ daysBeforeMonth a.year b.month :=
    daysBeforeMonth_mono a.year h'
  have hday := a.day_le_month
  have hpos := b.day_pos
  unfold dayNumber
  rw [← h]
  omega

/-- Days are in the order of their dates. -/
theorem dayNumber_lt_iff : a.dayNumber < b.dayNumber ↔
    a.year < b.year ∨ a.year = b.year ∧ (a.month < b.month ∨ a.month = b.month ∧ a.day < b.day) := by
  rcases Nat.lt_trichotomy a.year b.year with hlt | heq | hgt
  · exact ⟨fun _ => .inl hlt, fun _ => dayNumber_lt_of_year hlt⟩
  · rcases Nat.lt_trichotomy a.month b.month with hlt' | heq' | hgt'
    · exact ⟨fun _ => .inr ⟨heq, .inl hlt'⟩, fun _ => dayNumber_lt_of_month heq hlt'⟩
    · unfold dayNumber
      rw [heq, heq']
      omega
    · have := dayNumber_lt_of_month heq.symm hgt'
      omega
  · have := dayNumber_lt_of_year hgt
    omega

theorem dateText_lt_iff : a.dateText < b.dateText ↔ a.dayNumber < b.dayNumber := by
  have hday : ∀ x : DateTime, x.day < 10 ^ 2 := by
    intro x
    have hle := x.day_le
    have hmonth : daysInMonth x.year x.month ≤ 31 := by
      unfold daysInMonth
      split_ifs <;> omega
    omega
  have hmonth : ∀ x : DateTime, x.month < 10 ^ 2 := by
    intro x
    have hle := x.month_le
    omega
  rw [dayNumber_lt_iff, dateText, dateText, field_lt_field a.year_lt b.year_lt,
    field_lt_field (hmonth a) (hmonth b), pad_lt_pad (hday a) (hday b)]

theorem timeText_lt_iff : a.timeText < b.timeText ↔ a.secondOfDay < b.secondOfDay := by
  have hhour := a.hour_lt
  have hhour' := b.hour_lt
  have hminute := a.minute_lt
  have hminute' := b.minute_lt
  have hsecond := a.second_lt
  have hsecond' := b.second_lt
  rw [timeText, timeText, field_lt_field (by omega) (by omega), field_lt_field (by omega) (by omega),
    pad_lt_pad (by omega) (by omega)]
  unfold secondOfDay
  omega

/-- Texts that are ordered as numbers are equal where the numbers are. -/
theorem eq_iff_of_lt_iff {p q : List Char} {m n : ℕ} (hlt : p < q ↔ m < n) (hgt : q < p ↔ n < m) :
    p = q ↔ m = n := by
  constructor
  · rintro rfl
    have hirrefl := lt_irrefl p
    have hirrefl' := hirrefl
    rw [hlt] at hirrefl
    rw [hgt] at hirrefl'
    omega
  · rintro rfl
    rcases lt_trichotomy p q with h | h | h
    · exact absurd (hlt.1 h) (Nat.lt_irrefl _)
    · exact h
    · exact absurd (hgt.1 h) (Nat.lt_irrefl _)

/-- **Stamps are in the order of the seconds.** -/
theorem stamp_lt_stamp : a.stamp < b.stamp ↔ a.seconds < b.seconds := by
  have hday : a.dateText = b.dateText ↔ a.dayNumber = b.dayNumber :=
    eq_iff_of_lt_iff dateText_lt_iff dateText_lt_iff
  have hsecond := a.secondOfDay_lt
  have hsecond' := b.secondOfDay_lt
  have hlength : a.dateText.length = b.dateText.length := by rw [length_dateText, length_dateText]
  rw [stamp, stamp, append_lt_append hlength, List.cons_lt_cons_self, dateText_lt_iff, timeText_lt_iff,
    hday]
  unfold seconds
  omega

theorem stamp_inj : a.stamp = b.stamp ↔ a.seconds = b.seconds :=
  eq_iff_of_lt_iff stamp_lt_stamp stamp_lt_stamp

theorem instant_lt_iff : a.instant < b.instant ↔
    a.seconds < b.seconds ∨ a.seconds = b.seconds ∧ a.microsecond < b.microsecond := by
  have hmicro := a.microsecond_lt
  have hmicro' := b.microsecond_lt
  unfold instant
  omega

end DateTime

end Time
