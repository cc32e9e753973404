/-
Start01/Weekday.lean

The day of the week.  `Ymd2Wday` follows the Gregorian calendar, and is called with the date
that the tables give.  A day behind the last one of a month does it no harm: the days are
only added up.  The 29th of February 2100 of the tables is the Gregorian 1st of March, and is
counted as that; from then on the week stays a day behind, for the rest of the 32 bits
(`datetimeConvert_week_iff`).
-/
import Start01.Gregorian

namespace Start01

open Calendar

/-- The days before a month, by the table of `Ymd2Wday`. -/
theorem sum_mdays (year : ℕ) {m : ℕ} (hm : 1 ≤ m ∧ m ≤ 12) :
    (mdays.take m).sum + (if 2 < m ∧ gregorian year = true then 1 else 0)
      = daysBeforeMonth gregorian year m := by
  obtain ⟨hm1, hm12⟩ := hm
  cases h : gregorian year <;> interval_cases m <;> simp [daysBeforeMonth, monthDays, mdays, h]

/-- The test for a leap year in `Ymd2Wday`. -/
theorem leapTest_iff (year : ℕ) :
    (year % 400 = 0 ∨ year &&& 3 = 0 ∧ year % 100 ≠ 0) ↔ gregorian year = true := by
  have hand : year &&& 3 = year % 4 := Nat.and_two_pow_sub_one_eq_mod year 2
  rw [hand, gregorian, decide_eq_true_iff]
  omega

/-- **`Ymd2Wday`** counts on from the Saturday 2000-01-01. -/
theorem ymd2Wday_eq (n : ℕ) {m : ℕ} (d : ℕ) (hm : 1 ≤ m ∧ m ≤ 12) :
    ymd2Wday (startYear + n) m d = some ((monthStart gregorian startYear n m + d + 5) % 7) := by
  have hyear := daysBeforeYear_gregorian n
  have hmonth := sum_mdays (startYear + n) hm
  have hle : (n + 99) / 100 ≤ (n + 3) / 4 := by omega
  have hy : startYear + n - 1 = 1999 + n := by simp only [startYear]; omega
  have h4 : (1999 + n) / 4 = 499 + (n + 3) / 4 := by omega
  have h100 : (1999 + n) / 100 = 19 + (n + 99) / 100 := by omega
  have h400 : (1999 + n) / 400 = 4 + (n + 399) / 400 := by omega
  have hdays : (if m > 2 ∧ gregorian (startYear + n) = true then d + (mdays.take m).sum + 1
      else d + (mdays.take m).sum) = d + daysBeforeMonth gregorian (startYear + n) m := by
    rw [← hmonth]
    split <;> rfl
  rw [ymd2Wday, if_pos (show m ≤ mdays.length from hm.2)]
  simp only [leapTest_iff, hy, h4, h100, h400, hdays, monthStart]
  congr 1
  omega

/-- The week that `datetime_convert` stores. -/
theorem datetimeConvert_week {t : UInt32} {dt : TDateTime} (h : datetimeConvert t = some dt) :
    ymd2Wday dt.year.toNat dt.mon.toNat dt.day.toNat = some dt.week.toNat := by
  simp only [datetimeConvert, Option.bind_eq_bind, Option.bind_eq_some_iff] at h
  obtain ⟨off4Y, -, Y, -, mon, -, h⟩ := h
  by_cases hzero : mon = 0
  · rw [if_pos hzero] at h
    cases h
  rw [if_neg hzero] at h
  simp only [Option.bind_eq_some_iff] at h
  obtain ⟨passed, -, week, hweek, heq⟩ := h
  obtain rfl := Option.some.inj heq
  have hmon : mon ≤ 12 := by
    by_contra hlt
    rw [ymd2Wday, if_neg (show ¬ mon ≤ mdays.length from hlt)] at hweek
    cases hweek
  have hmon8 : (UInt8.ofNat mon).toNat = mon := UInt8.toNat_ofNat_of_lt' (hmon.trans_lt (by decide))
  have hlt : week < 7 := by
    rw [ymd2Wday, if_pos (show mon ≤ mdays.length from hmon)] at hweek
    obtain rfl := Option.some.inj hweek
    exact Nat.mod_lt _ (by decide)
  have hweek8 : (UInt8.ofNat week).toNat = week := UInt8.toNat_ofNat_of_lt' (hlt.trans (by decide))
  simp only [hmon8, hweek8]
  exact hweek

/-- The week, from the day of the count. -/
theorem ConvertOf.week_eq_iff {t : UInt32} {dt : TDateTime} (h : ConvertOf t.toNat dt)
    (hconv : datetimeConvert t = some dt) :
    dt.week.toNat = (t.toNat / 86400 + 6) % 7 ↔
      BeforeMarch2100 (dt.year.toNat - startYear) dt.mon.toNat := by
  have hweek := datetimeConvert_week hconv
  obtain ⟨n, hn⟩ : ∃ n, n = dt.year.toNat - startYear := ⟨_, rfl⟩
  have hyear : dt.year.toNat = startYear + n := by rw [hn, Nat.add_sub_cancel' h.year.1]
  rw [hyear, ymd2Wday_eq n _ h.mon] at hweek
  have hday : t.toNat / 86400
      = monthStart leapByFour startYear n dt.mon.toNat + dt.day.toNat - 1 := by
    have hcount := h.count
    have hlo := h.day.1
    have hhour := h.hour
    have hmin := h.min
    have hsec := h.sec
    rw [secsBefore, ← hn] at hcount
    simp only [TDateTime.secsIntoMonth, secsPerDay] at hcount
    omega
  rw [← Option.some.inj hweek, ← hn, hday]
  have hlo := h.day.1
  constructor
  · intro hsame
    by_contra hafter
    have hsucc := monthStart_succ hafter (hn ▸ h.year_lt)
    omega
  · intro hbefore
    have hstart := monthStart_eq hbefore
    omega

/-- **The week** is right for every count that is not a multiple of four years, up to the
midnight that begins 2100-03-02. -/
theorem datetimeConvert_week_iff (t : UInt32) :
    (∃ dt, datetimeConvert t = some dt ∧ dt.week.toNat = (t.toNat / 86400 + 6) % 7) ↔
      t.toNat % secsPerFourYear ≠ 0 ∧ t.toNat ≤ march2100 + secsPerDay := by
  constructor
  · rintro ⟨dt, hconv, hweek⟩
    have h := ConvertOf.of_eq_some hconv
    refine ⟨fun hmod => ?_, h.beforeMarch2100_iff.mp ((h.week_eq_iff hconv).mp hweek)⟩
    rw [datetimeConvert_eq_none hmod] at hconv
    cases hconv
  · rintro ⟨hmod, hle⟩
    obtain ⟨dt, hconv, h⟩ := datetimeConvert_spec hmod
    exact ⟨dt, hconv, (h.week_eq_iff hconv).mpr (h.beforeMarch2100_iff.mpr hle)⟩

/-- The second behind the midnight of 2100-03-02, a Tuesday, is given as the Monday
2100-03-01. -/
theorem week_behind :
    datetimeConvert 3160944001 = some ⟨2100, 3, 1, 1, 0, 0, 1⟩ ∧
      ¬ ∀ t : UInt32, ∃ dt, datetimeConvert t = some dt ∧
        dt.week.toNat = (t.toNat / 86400 + 6) % 7 := by
  have hbehind : datetimeConvert 3160944001 = some ⟨2100, 3, 1, 1, 0, 0, 1⟩ := by decide
  refine ⟨hbehind, fun hall => ?_⟩
  obtain ⟨dt, hconv, hweek⟩ := hall 3160944001
  rw [← Option.some.inj (hbehind.symm.trans hconv)] at hweek
  exact absurd hweek (by decide)

end Start01
