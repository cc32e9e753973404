/-
Start01/Gregorian.lean

The two halves of datetime.c against the Gregorian calendar.

The tables take every fourth year for a leap year, and 2100 is none: up to 2100-03-01 they
are the Gregorian calendar, from then on a day behind.  The loops of `datetime_convert` pass
a bound only behind it, so the first second of a month still belongs to the month before, as
the day behind its last one (`datetimeConvert_gregorian_iff`).

The closed form of `datetime_mktime` is the Gregorian one, over all the years that 32 bits
reach, but for January (`datetimeMktime_gregorian_iff`).
-/
import Start01.DateRoundTrip

namespace Start01

open Calendar

/-! ### The Gregorian calendar -/

/-- The Gregorian leap rule. -/
def gregorian (y : ℕ) : Bool := y % 4 = 0 ∧ (y % 100 ≠ 0 ∨ y % 400 = 0)

/-- The seconds from 2000-01-01 00:00:00 to the first of a month. -/
def gregorianBefore (year mon : ℕ) : ℕ := secsPerDay * monthStart gregorian startYear (year - startYear) mon

/-- A date of the calendar, from 2000 on, and a time of day. -/
structure TDateTime.Gregorian (dt : TDateTime) : Prop where
  year : startYear ≤ dt.year.toNat
  mon : 1 ≤ dt.mon.toNat ∧ dt.mon.toNat ≤ 12
  day : 1 ≤ dt.day.toNat ∧ dt.day.toNat ≤ monthDays gregorian dt.year.toNat dt.mon.toNat
  hour : dt.hour.toNat < 24
  min : dt.min.toNat < 60
  sec : dt.sec.toNat < 60

/-- The seconds from 2000-01-01 00:00:00 to a date. -/
def TDateTime.seconds (dt : TDateTime) : ℕ :=
  gregorianBefore dt.year.toNat dt.mon.toNat + (dt.day.toNat - 1) * secsPerDay
    + dt.hour.toNat * 3600 + dt.min.toNat * 60 + dt.sec.toNat

/-- `2100-03-01 00:00:00`. -/
def march2100 : ℕ := 3160857600

/-- A quotient that is rounded up grows behind each multiple. -/
theorem ceil_succ (k : ℕ) (hk : 0 < k) (hdvd : k ∣ startYear) (n : ℕ) :
    (n + 1 + (k - 1)) / k = (n + (k - 1)) / k + if (startYear + n) % k = 0 then 1 else 0 := by
  have hsum : n + (k - 1) + 1 = n + k := by omega
  have hmult : k ∣ n + (k - 1) + 1 ↔ (startYear + n) % k = 0 := by
    rw [hsum, Nat.dvd_add_self_right, ← Nat.dvd_iff_mod_eq_zero, Nat.dvd_add_right hdvd]
  rw [Nat.add_right_comm, Nat.succ_div]
  simp only [hmult]

/-- A leap year is a fourth year, and no hundredth one but a four-hundredth. -/
theorem yearDays_gregorian (y : ℕ) :
    yearDays gregorian y + (if y % 100 = 0 then 1 else 0) =
      365 + (if y % 4 = 0 then 1 else 0) + if y % 400 = 0 then 1 else 0 := by
  simp only [yearDays, gregorian, decide_eq_true_iff]
  split_ifs <;> omega

theorem daysBeforeYear_gregorian (n : ℕ) :
    daysBeforeYear gregorian startYear n + (n + 99) / 100
      = 365 * n + (n + 3) / 4 + (n + 399) / 400 := by
  induction n with
  | zero => rfl
  | succ n ih =>
    have hyear := yearDays_gregorian (startYear + n)
    have h4 : (n + 1 + 3) / 4 = (n + 3) / 4 + if (startYear + n) % 4 = 0 then 1 else 0 :=
      ceil_succ 4 (by decide) (by decide) n
    have h100 : (n + 1 + 99) / 100 = (n + 99) / 100 + if (startYear + n) % 100 = 0 then 1 else 0 :=
      ceil_succ 100 (by decide) (by decide) n
    have h400 : (n + 1 + 399) / 400 = (n + 399) / 400 + if (startYear + n) % 400 = 0 then 1 else 0 :=
      ceil_succ 400 (by decide) (by decide) n
    show daysBeforeYear gregorian startYear n + yearDays gregorian (startYear + n) + _ = _
    rw [h4, h100, h400]
    linarith

/-! ### The two leap rules -/

/-- A month begins before the 1st of March 2100. -/
def BeforeMarch2100 (n m : ℕ) : Prop := n < 100 ∨ n = 100 ∧ m ≤ 2

theorem gregorian_eq_leapByFour {n : ℕ} (hn : n < 100) :
    gregorian (startYear + n) = leapByFour (startYear + n) := by
  simp only [gregorian, leapByFour, startYear]
  apply decide_eq_decide.mpr
  omega

theorem daysBeforeYear_eq {n : ℕ} (hn : n ≤ 100) :
    daysBeforeYear gregorian startYear n = daysBeforeYear leapByFour startYear n := by
  have h := daysBeforeYear_gregorian n
  rw [daysBeforeYear_leapByFour]
  omega

theorem monthDays_congr {leap leap' : ℕ → Bool} {y : ℕ} (h : leap y = leap' y) (m : ℕ) :
    monthDays leap y m = monthDays leap' y m := by
  rw [monthDays, h, monthDays]

theorem daysBeforeMonth_congr {leap leap' : ℕ → Bool} {y : ℕ} (h : leap y = leap' y) (m : ℕ) :
    daysBeforeMonth leap y m = daysBeforeMonth leap' y m := by
  induction m with
  | zero => rfl
  | succ m ih =>
    cases m with
    | zero => rfl
    | succ m => rw [daysBeforeMonth, daysBeforeMonth, ih, monthDays_congr h]

/-- **Up to March 2100** the two calendars begin their months on the same days. -/
theorem monthStart_eq {n m : ℕ} (h : BeforeMarch2100 n m) :
    monthStart gregorian startYear n m = monthStart leapByFour startYear n m := by
  rcases h with hn | ⟨rfl, hm⟩
  · rw [monthStart, monthStart, daysBeforeYear_eq hn.le,
      daysBeforeMonth_congr (gregorian_eq_leapByFour hn)]
  · rw [monthStart, monthStart, daysBeforeYear_eq le_rfl, daysBeforeMonth_to_february _ _ hm]

/-- **From March 2100 on**, for a hundred years, the Gregorian months begin a day earlier. -/
theorem monthStart_succ {n m : ℕ} (h : ¬ BeforeMarch2100 n m) (hn : n < 200) :
    monthStart gregorian startYear n m + 1 = monthStart leapByFour startYear n m := by
  have hyear := daysBeforeYear_gregorian n
  have hyear' := daysBeforeYear_leapByFour n
  rw [monthStart, monthStart]
  unfold BeforeMarch2100 at h
  by_cases h100 : n = 100
  · subst h100
    have hmonth := @daysBeforeMonth_from_march gregorian leapByFour 2100 2100 m (by omega)
    have hdays : yearDays leapByFour 2100 = 366 ∧ yearDays gregorian 2100 = 365 := by decide
    rw [hdays.1, hdays.2] at hmonth
    show _ + daysBeforeMonth gregorian 2100 m + 1 = _ + daysBeforeMonth leapByFour 2100 m
    omega
  · have hsame : gregorian (startYear + n) = leapByFour (startYear + n) := by
      simp only [gregorian, leapByFour, startYear]
      apply decide_eq_decide.mpr
      omega
    have hcentury : (n + 99) / 100 = 2 ∧ (n + 399) / 400 = 1 := by omega
    rw [daysBeforeMonth_congr hsame]
    omega

theorem march2100_eq : march2100 = secsPerDay * monthStart gregorian startYear 100 3 ∧
    march2100 + secsPerDay = secsPerDay * monthStart leapByFour startYear 100 3 := by
  have hyear := daysBeforeYear_leapByFour 100
  have hyear' := daysBeforeYear_eq (le_refl 100)
  rw [monthStart, monthStart, hyear', hyear]
  constructor <;> rfl

/-! ### Splitting a count -/

namespace TDateTime.Gregorian

variable {dt : TDateTime}

/-- The seconds of a date, from the month on. -/
theorem seconds_eq (h : dt.Gregorian) :
    (dt.seconds : ℤ) = gregorianBefore dt.year.toNat dt.mon.toNat + dt.secsIntoMonth := by
  have hday := h.day.1
  simp only [TDateTime.seconds, TDateTime.secsIntoMonth, secsPerDay]
  omega

/-- The date lies inside its month. -/
theorem secsIntoMonth_lt (h : dt.Gregorian) : 0 ≤ dt.secsIntoMonth ∧
    dt.secsIntoMonth < secsPerDay * monthDays gregorian dt.year.toNat dt.mon.toNat := by
  obtain ⟨hlo, hhi⟩ := h.day
  have hhour := h.hour
  have hmin := h.min
  have hsec := h.sec
  simp only [TDateTime.secsIntoMonth, secsPerDay]
  omega

end TDateTime.Gregorian

/-- What `datetime_convert` finds before March 2100 is in a month of the Gregorian calendar
that lies before March 2100. -/
theorem ConvertOf.beforeMarch2100_iff {t : ℕ} {dt : TDateTime} (h : ConvertOf t dt) :
    BeforeMarch2100 (dt.year.toNat - startYear) dt.mon.toNat ↔ t ≤ march2100 + secsPerDay := by
  have hcount := h.count
  obtain ⟨hlo, hhi⟩ := h.inMonth
  have hyear := Nat.add_sub_cancel' h.year.1
  rw [march2100_eq.2]
  constructor
  · intro hbefore
    have hend := @monthStart_add_le leapByFour startYear (dt.year.toNat - startYear) dt.mon.toNat
      100 3 h.mon.1 h.mon.2 (by unfold BeforeMarch2100 at hbefore; omega)
    rw [hyear] at hend
    have hmul := Nat.mul_le_mul_left secsPerDay hend
    rw [Nat.mul_add] at hmul
    simp only [secsBefore, secsOfMonth] at hcount hhi
    omega
  · intro hle
    by_contra hafter
    have hstart := @monthStart_le leapByFour startYear 100 3 (dt.year.toNat - startYear)
      dt.mon.toNat (by decide) (by decide) (by unfold BeforeMarch2100 at hafter; omega)
    have hmul := Nat.mul_le_mul_left secsPerDay hstart
    simp only [secsBefore] at hcount
    omega

/-- The years that 32 bits reach. -/
theorem ConvertOf.year_lt {t : UInt32} {dt : TDateTime} (h : ConvertOf t.toNat dt) :
    dt.year.toNat - startYear < 200 := by
  have ht := t.toNat_lt
  have hyear := h.year.2
  simp only [startYear, secsPerFourYear] at hyear ⊢
  omega

/-- The month begins on the same day by both rules, and so has the same beginning. -/
theorem secsBefore_eq {year mon : ℕ} (h : BeforeMarch2100 (year - startYear) mon) :
    gregorianBefore year mon = secsBefore year mon := by
  rw [gregorianBefore, secsBefore, monthStart_eq h]

theorem secsBefore_succ {year mon : ℕ} (h : ¬ BeforeMarch2100 (year - startYear) mon)
    (hyear : year - startYear < 200) :
    gregorianBefore year mon + secsPerDay = secsBefore year mon := by
  rw [gregorianBefore, secsBefore, ← monthStart_succ h hyear, Nat.mul_succ]

/-- The first second of no month. -/
def InsideMonth (t : ℕ) : Prop :=
  ∀ year mon, startYear ≤ year → 1 ≤ mon ∧ mon ≤ 12 → t ≠ gregorianBefore year mon

/-- A date that is right lies inside its month. -/
theorem ConvertOf.inside {t : ℕ} {dt : TDateTime} (h : ConvertOf t dt) (hdt : dt.Gregorian)
    (ht : dt.seconds = t) : InsideMonth t := by
  have hcount := hdt.seconds_eq
  obtain ⟨-, hlt⟩ := hdt.secsIntoMonth_lt
  have hpos := h.inMonth.1
  have hyear := Nat.add_sub_cancel' hdt.year
  intro year mon hstart hmon
  unfold gregorianBefore at hcount ⊢
  apply @not_first_of_month gregorian startYear secsPerDay t (dt.year.toNat - startYear)
    dt.mon.toNat (year - startYear) mon hdt.mon hmon
  · omega
  · rw [hyear, Nat.mul_add]
    omega

/-- The multiples of four years before March 2100 begin a month. -/
theorem mod_secsPerFourYear_of_inside {t : ℕ} (ht : t < march2100) (h : InsideMonth t) :
    t % secsPerFourYear ≠ 0 := by
  intro hmod
  obtain ⟨q, hq⟩ : ∃ q, t = q * secsPerFourYear :=
    ⟨_, (Nat.div_mul_cancel (Nat.dvd_of_mod_eq_zero hmod)).symm⟩
  have hfour := secsPerDay_mul_daysBeforeYear q 0
  have hq25 : 4 * q + 0 ≤ 100 := by
    simp only [march2100, secsPerFourYear] at ht hq
    omega
  refine h (startYear + (4 * q + 0)) 1 (Nat.le_add_right _ _) ⟨le_rfl, by decide⟩ ?_
  have hjan : daysBeforeMonth gregorian (startYear + (4 * q + 0)) 1 = 0 := rfl
  rw [gregorianBefore, Nat.add_sub_cancel_left, monthStart, daysBeforeYear_eq hq25, hjan,
    Nat.add_zero (daysBeforeYear _ _ _), hfour, hq]
  simp [daysBeforeYear]

/-- **Before March 2100**, inside a month, the date is the Gregorian one. -/
theorem ConvertOf.right {t : ℕ} {dt : TDateTime} (h : ConvertOf t dt) (ht : t < march2100)
    (hin : InsideMonth t) : dt.Gregorian ∧ dt.seconds = t := by
  have hbefore := h.beforeMarch2100_iff.mpr (ht.le.trans (Nat.le_add_right _ _))
  have hstart := secsBefore_eq hbefore
  have hcount := h.count
  obtain ⟨hpos, hlen⟩ := h.inMonth
  have hyear := Nat.add_sub_cancel' h.year.1
  have hle : dt.secsIntoMonth ≤ secsPerDay * monthDays gregorian dt.year.toNat dt.mon.toNat := by
    rcases hbefore with hn | ⟨hn, hm⟩
    · have hrule := gregorian_eq_leapByFour hn
      rw [hyear] at hrule
      rw [monthDays_congr hrule]
      exact hlen
    · rw [hn] at hyear
      rw [← hyear] at hlen hstart hcount ⊢
      obtain hm1 | hm2 : dt.mon.toNat = 1 ∨ dt.mon.toNat = 2 := by have := h.mon.1; omega
      · rw [hm1] at hlen ⊢
        exact hlen
      · -- February of 2100 has 28 days, and `t` lies in it
        rw [hm2] at hstart hcount ⊢
        have hmarch : march2100 = gregorianBefore (startYear + 100) 2 + secsPerDay * 28 := by
          rw [march2100_eq.1, gregorianBefore, Nat.add_sub_cancel_left, ← Nat.mul_add]
          rfl
        show dt.secsIntoMonth ≤ ((secsPerDay * 28 : ℕ) : ℤ)
        omega
  -- the last second of the month is the first of the next
  have hne : dt.secsIntoMonth ≠ secsPerDay * monthDays gregorian dt.year.toNat dt.mon.toNat := by
    intro heq
    obtain ⟨n', m', hm', hnext⟩ := @exists_next_month gregorian startYear
      (dt.year.toNat - startYear) dt.mon.toNat h.mon.1 h.mon.2
    apply hin (startYear + n') m' (Nat.le_add_right _ _) hm'
    rw [gregorianBefore, Nat.add_sub_cancel_left, hnext, Nat.mul_add, hyear, ← gregorianBefore]
    omega
  have hday : dt.day.toNat ≤ monthDays gregorian dt.year.toNat dt.mon.toNat := by
    simp only [TDateTime.secsIntoMonth, secsPerDay] at hle hne
    omega
  have hdt : dt.Gregorian := ⟨h.year.1, h.mon, ⟨h.day.1, hday⟩, h.hour, h.min, h.sec⟩
  have hsecs := hdt.seconds_eq
  rw [hstart] at hsecs
  exact ⟨hdt, by omega⟩

/-- **`datetime_convert`** returns the Gregorian date and time of a count if and only if it is
before March 2100 and not the first second of a month. -/
theorem datetimeConvert_gregorian_iff (t : UInt32) :
    (∃ dt, datetimeConvert t = some dt ∧ dt.Gregorian ∧ dt.seconds = t.toNat) ↔
      t.toNat < march2100 ∧ InsideMonth t.toNat := by
  constructor
  · rintro ⟨dt, hconv, hdt, ht⟩
    have h := ConvertOf.of_eq_some hconv
    refine ⟨?_, h.inside hdt ht⟩
    by_contra hafter
    have hcount := h.count
    have hsecs := hdt.seconds_eq
    obtain ⟨-, hlt⟩ := hdt.secsIntoMonth_lt
    by_cases hbefore : BeforeMarch2100 (dt.year.toNat - startYear) dt.mon.toNat
    · -- a month before March 2100 ends before it
      have hend := @monthStart_add_le gregorian startYear (dt.year.toNat - startYear) dt.mon.toNat
        100 3 h.mon.1 h.mon.2 (by unfold BeforeMarch2100 at hbefore; omega)
      rw [Nat.add_sub_cancel' h.year.1] at hend
      have hmul := Nat.mul_le_mul_left secsPerDay hend
      rw [← march2100_eq.1, Nat.mul_add, ← gregorianBefore] at hmul
      omega
    · have hstart := secsBefore_succ hbefore h.year_lt
      have hday : 0 < secsPerDay := by decide
      omega
  · rintro ⟨ht, hin⟩
    obtain ⟨dt, hconv, h⟩ := datetimeConvert_spec (mod_secsPerFourYear_of_inside ht hin)
    exact ⟨dt, hconv, h.right ht hin⟩

/-- The midnight of 2000-02-01 is the 32nd of January, and the one of 2000-01-01 reads in front
of the month table. -/
theorem first_second_of_month_lost :
    datetimeConvert 0 = none ∧ datetimeConvert 2678400 = some ⟨2000, 1, 32, 2, 0, 0, 0⟩ ∧
      ¬ ∀ t : UInt32, ∃ dt, datetimeConvert t = some dt ∧ dt.Gregorian ∧ dt.seconds = t.toNat := by
  have h32 : datetimeConvert 2678400 = some ⟨2000, 1, 32, 2, 0, 0, 0⟩ := by decide
  refine ⟨by decide, h32, fun hall => ?_⟩
  obtain ⟨dt, hconv, hdt, -⟩ := hall 2678400
  rw [← Option.some.inj (h32.symm.trans hconv)] at hdt
  exact absurd hdt.day.2 (by decide)

/-! ### Counting a date -/

/-- The leap days of the closed form, those before 2000 counted. -/
theorem closedForm_startYear (n m : ℕ) :
    closedForm (startYear + n) m + n / 100
      = 730485 + 367 * m / 12 + 365 * n + n / 4 + n / 400 := by
  have hle : n / 100 ≤ n / 4 := Nat.div_le_div_left (by decide) (by decide)
  have h4 : (startYear + n) / 4 = 500 + n / 4 := by simp only [startYear]; omega
  have h100 : (startYear + n) / 100 = 20 + n / 100 := by simp only [startYear]; omega
  have h400 : (startYear + n) / 400 = 5 + n / 400 := by simp only [startYear]; omega
  rw [closedForm, h4, h100, h400, startYear]
  omega

/-- The days to the end of a year. -/
theorem daysBeforeYear_add_yearDays (n : ℕ) :
    daysBeforeYear gregorian startYear n + yearDays gregorian (startYear + n) + n / 100
      = 365 * n + 366 + n / 4 + n / 400 := by
  have hnext := daysBeforeYear_gregorian (n + 1)
  have h4 : (n + 1 + 3) / 4 = n / 4 + 1 := by omega
  have h100 : (n + 1 + 99) / 100 = n / 100 + 1 := by omega
  have h400 : (n + 1 + 399) / 400 = n / 400 + 1 := by omega
  rw [daysBeforeYear, h4, h100, h400] at hnext
  omega

/-- The closed form counts the days to the first of a month, from March on. -/
theorem closedForm_from_march (n : ℕ) {m : ℕ} (hm : 3 ≤ m ∧ m ≤ 12) :
    closedForm (startYear + n) (m - 2) = 730455 + monthStart gregorian startYear n m := by
  have hform := closedForm_startYear n (m - 2)
  have hyear := daysBeforeYear_add_yearDays n
  have hmonth := @daysBeforeMonth_closed gregorian (startYear + n) m hm
  have hdays : 365 ≤ yearDays gregorian (startYear + n) := by
    unfold yearDays
    split <;> decide
  rw [monthStart]
  omega

/-- February is the last month of the year before. -/
theorem closedForm_february (n : ℕ) :
    closedForm (1999 + n) 12 = 730455 + monthStart gregorian startYear n 2 := by
  have hyear := daysBeforeYear_gregorian n
  have hmonth : daysBeforeMonth gregorian (startYear + n) 2 = 31 := rfl
  have hle : (n + 99) / 100 ≤ (n + 3) / 4 := by omega
  have h4 : (1999 + n) / 4 = 499 + (n + 3) / 4 := by omega
  have h100 : (1999 + n) / 100 = 19 + (n + 99) / 100 := by omega
  have h400 : (1999 + n) / 400 = 4 + (n + 399) / 400 := by omega
  rw [closedForm, monthStart, hmonth, h4, h100, h400]
  omega

/-- January is the month 255: more than 21 years too many. -/
theorem closedForm_january (n : ℕ) :
    closedForm (startYear + n) 255 = 730455 + monthStart gregorian startYear n 1 + 7827 ∨
      closedForm (startYear + n) 255 = 730455 + monthStart gregorian startYear n 1 + 7828 := by
  have hform := closedForm_startYear n 255
  have hyear := daysBeforeYear_add_yearDays n
  have hmonth : daysBeforeMonth gregorian (startYear + n) 1 = 0 := rfl
  have hdays : yearDays gregorian (startYear + n) = 365 ∨ yearDays gregorian (startYear + n) = 366 := by
    unfold yearDays
    split
    · exact .inr rfl
    · exact .inl rfl
  rw [monthStart, hmonth]
  omega

/-- What `datetime_mktime` counts, `extra` being the days too many. -/
theorem TDateTime.Gregorian.datetimeMktime_toNat {dt : TDateTime} (h : dt.Gregorian)
    {year mon extra : ℕ} (hyear : (datetimeMktime dt).2.year.toNat = year)
    (hmon : (datetimeMktime dt).2.mon.toNat = mon)
    (hform : closedForm year mon = 730455
      + monthStart gregorian startYear (dt.year.toNat - startYear) dt.mon.toNat + extra)
    (hpos : 730456 ≤ closedForm year mon) :
    (datetimeMktime dt).1.toNat = (dt.seconds + extra * 86400) % 2 ^ 32 := by
  have hcount := datetimeMktime_mod hyear hmon hpos
  have hsecs := h.seconds_eq
  have hdays : ((closedForm year mon : ℤ) - 730455) * 86400 + dt.secsIntoMonth
      = ((dt.seconds + extra * 86400 : ℕ) : ℤ) := by
    rw [gregorianBefore] at hsecs
    simp only [secsPerDay] at hsecs
    omega
  rw [hdays] at hcount
  exact_mod_cast hcount

/-- **`datetime_mktime`** counts a Gregorian date whose seconds fit in 32 bits if and only if
it is not in January. -/
theorem datetimeMktime_gregorian_iff {dt : TDateTime} (hdt : dt.Gregorian)
    (hlt : dt.seconds < 2 ^ 32) : (datetimeMktime dt).1.toNat = dt.seconds ↔ dt.mon ≠ 1 := by
  obtain ⟨hfeb, hlater⟩ := datetimeMktime_shift dt
  obtain ⟨n, hn⟩ : ∃ n, dt.year.toNat = startYear + n := ⟨_, (Nat.add_sub_of_le hdt.year).symm⟩
  have hn' : dt.year.toNat - startYear = n := by rw [hn, Nat.add_sub_cancel_left]
  have hjan : dt.mon ≠ 1 ↔ dt.mon.toNat ≠ 1 := not_congr UInt8.toNat_inj.symm
  have hcount := @TDateTime.Gregorian.datetimeMktime_toNat dt hdt
  rw [hn'] at hcount
  rw [hjan]
  obtain ⟨hm1, hm12⟩ := hdt.mon
  obtain h1 | h2 | h3 : dt.mon.toNat = 1 ∨ dt.mon.toNat = 2 ∨ 3 ≤ dt.mon.toNat := by omega
  · -- January: the month is 255, and what is added is no multiple of 2^32 seconds
    obtain ⟨hyear, hmon⟩ := hlater (by omega)
    have hmon' : (datetimeMktime dt).2.mon.toNat = 255 := by rw [hmon, h1]
    rw [h1] at hcount
    have hyear' : (datetimeMktime dt).2.year.toNat = startYear + n := by rw [hyear, hn]
    rcases closedForm_january n with hform | hform
    · rw [@hcount _ _ 7827 hyear' hmon' hform (by omega)]
      omega
    · rw [@hcount _ _ 7828 hyear' hmon' hform (by omega)]
      omega
  · obtain ⟨hyear, hmon⟩ := hfeb h2
    have hyear' : (datetimeMktime dt).2.year.toNat = 1999 + n := by
      have hle : (1 : UInt16) ≤ dt.year := by
        rw [UInt16.le_iff_toNat_le, hn]
        exact (by decide : 1 ≤ startYear).trans (Nat.le_add_right _ _)
      rw [hyear, UInt16.toNat_sub_of_le _ _ hle, hn]
      show 2000 + n - 1 = 1999 + n
      omega
    have hform := closedForm_february n
    have hjan31 : 31 ≤ monthStart gregorian startYear n 2 := Nat.le_add_left _ _
    rw [@hcount _ _ 0 hyear' hmon (h2 ▸ hform) (by omega)]
    omega
  · obtain ⟨hyear, hmon⟩ := hlater (by omega)
    have hyear' : (datetimeMktime dt).2.year.toNat = startYear + n := by rw [hyear, hn]
    have hmon' : (datetimeMktime dt).2.mon.toNat = dt.mon.toNat - 2 := by rw [hmon]; omega
    have hform := closedForm_from_march n ⟨h3, hm12⟩
    have hfirst : 31 ≤ daysBeforeMonth gregorian (startYear + n) dt.mon.toNat :=
      @daysBeforeMonth_mono gregorian (startYear + n) 2 _ (by omega)
    have hstart : 31 ≤ monthStart gregorian startYear n dt.mon.toNat :=
      hfirst.trans (Nat.le_add_left _ _)
    rw [@hcount _ _ 0 hyear' hmon' hform (by omega)]
    omega

/-- 2012-05-10 10:12:12. -/
theorem datetimeMktime_gregorian_test_date :
    (datetimeMktime ⟨2012, 5, 10, 4, 10, 12, 12⟩).1.toNat
      = (⟨2012, 5, 10, 4, 10, 12, 12⟩ : TDateTime).seconds := by
  have hdt : (⟨2012, 5, 10, 4, 10, 12, 12⟩ : TDateTime).Gregorian :=
    ⟨by decide, by decide, by decide, by decide, by decide, by decide⟩
  exact (datetimeMktime_gregorian_iff hdt (by decide)).mpr (by decide)

/-- The first instant that can be given: 2000-01-01 00:00:00 is counted as 2021-06-07. -/
theorem january_miscounted :
    (datetimeMktime ⟨2000, 1, 1, 6, 0, 0, 0⟩).1 = 676339200 ∧
      ¬ ∀ dt : TDateTime, dt.Gregorian → dt.seconds < 2 ^ 32 →
        (datetimeMktime dt).1.toNat = dt.seconds := by
  have hcount : (datetimeMktime ⟨2000, 1, 1, 6, 0, 0, 0⟩).1 = 676339200 := by decide
  refine ⟨hcount, fun hall => ?_⟩
  have h := hall ⟨2000, 1, 1, 6, 0, 0, 0⟩
    ⟨by decide, by decide, by decide, by decide, by decide, by decide⟩ (by decide)
  rw [hcount] at h
  exact absurd h (by decide)

end Start01
