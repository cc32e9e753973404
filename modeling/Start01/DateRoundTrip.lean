/-
Start01/DateRoundTrip.lean

Setting the clock and reading it back.  The two halves are taken apart:

* `datetimeConvert_spec` — for every count that is not a multiple of four years,
  `datetime_convert` returns the month the count lies in, *behind* its beginning
  and up to its end, and the seconds since that beginning;
* `datetimeMktime_toNat` — from February on `datetime_mktime` counts the date; for
  January the month wraps in its unsigned char, and more than a year is added.

So a date is read back exactly where it lies inside its month by that reading
(`setDatetime_getDatetime_iff`).
-/
import Start01.DateTime
import Start01.Lib.Calendar

namespace Start01

open Calendar

/-! ### The tables -/

/-- The leap rule of the tables. -/
def leapByFour (y : ℕ) : Bool := y % 4 = 0

/-- The seconds from the start of 2000 to the first of a month. -/
def secsBefore (year mon : ℕ) : ℕ := secsPerDay * monthStart leapByFour startYear (year - startYear) mon

/-- The seconds of a month. -/
def secsOfMonth (year mon : ℕ) : ℕ := secsPerDay * monthDays leapByFour year mon

theorem daysBeforeYear_leapByFour (n : ℕ) :
    daysBeforeYear leapByFour startYear n = 365 * n + (n + 3) / 4 := by
  induction n with
  | zero => rfl
  | succ n ih =>
    show daysBeforeYear leapByFour startYear n + yearDays leapByFour (startYear + n) = _
    rw [ih]
    by_cases h : (startYear + n) % 4 = 0
    · rw [yearDays, if_pos (by simpa [leapByFour] using h)]
      simp only [startYear] at h
      omega
    · rw [yearDays, if_neg (by simpa [leapByFour] using h)]
      simp only [startYear] at h
      omega

theorem yearSecsAccu_get {k : ℕ} (hk : k ≤ 4) :
    yearSecsAccu[k]? = some (secsPerDay * daysBeforeYear leapByFour startYear k) := by
  rw [daysBeforeYear_leapByFour]
  interval_cases k <;> rfl

/-- The month table of a year. -/
def monthSecsAccu (year : ℕ) : List ℕ := if year % 4 ≠ 0 then monthSecsAccuC else monthSecsAccuL

theorem monthSecsAccu_get (year : ℕ) {m : ℕ} (hm : m ≤ 12) :
    (monthSecsAccu year)[m]? = some (secsPerDay * daysBeforeMonth leapByFour year (m + 1)) := by
  by_cases h : year % 4 = 0
  · have hleap : leapByFour year = true := by simpa [leapByFour] using h
    rw [monthSecsAccu, if_neg (by simpa using h)]
    interval_cases m <;> simp [daysBeforeMonth, monthDays, hleap, monthSecsAccuL, secsPerDay]
  · have hleap : leapByFour year = false := by simpa [leapByFour] using h
    rw [monthSecsAccu, if_pos h]
    interval_cases m <;> simp [daysBeforeMonth, monthDays, hleap, monthSecsAccuC, secsPerDay]

/-- Where the last entry is not passed, the loop stops at the first that is not. -/
theorem whileAbove_spec {tbl : List ℕ} {f : ℕ → ℕ} {N x : ℕ}
    (htbl : ∀ j, j ≤ N → tbl[j]? = some (f j)) (hx : x ≤ f N) :
    ∃ n, whileAbove x tbl = some n ∧ n ≤ N ∧ x ≤ f n ∧ ∀ j < n, f j < x := by
  obtain ⟨hN, hlast⟩ := List.getElem?_eq_some_iff.mp (htbl N (le_refl N))
  have hsome : whileAbove x tbl = some (tbl.findIdx fun b => x ≤ b) :=
    List.findIdx?_eq_some_of_exists ⟨f N, hlast ▸ List.getElem_mem hN, by simpa using hx⟩
  obtain ⟨hlen, hle, hbefore⟩ := List.findIdx?_eq_some_iff_getElem.mp hsome
  set n := tbl.findIdx fun b => x ≤ b
  -- an entry before the stop has been passed
  have hpassed : ∀ j < n, j ≤ N → f j < x := by
    intro j hj hjN
    obtain ⟨_, hget⟩ := List.getElem?_eq_some_iff.mp (htbl j hjN)
    have := hbefore j hj
    rw [hget] at this
    simpa using this
  have hn : n ≤ N := by
    by_contra hlt
    exact absurd (hpassed N (by omega) (le_refl N)) (by omega)
  obtain ⟨_, hget⟩ := List.getElem?_eq_some_iff.mp (htbl n hn)
  rw [hget] at hle
  exact ⟨n, hsome, hn, by simpa using hle, fun j hj => hpassed j hj (by omega)⟩

/-- The year step. -/
theorem yearStep {r : ℕ} (hr : r ≤ secsPerFourYear) :
    ∃ k, k ≤ 3 ∧ whileAbove r (yearSecsAccu.drop 1) = some k ∧
      secsPerDay * daysBeforeYear leapByFour startYear k ≤ r ∧
      (0 < r → secsPerDay * daysBeforeYear leapByFour startYear k < r) ∧
      r ≤ secsPerDay * daysBeforeYear leapByFour startYear (k + 1) := by
  have htbl : ∀ j, j ≤ 3 → (yearSecsAccu.drop 1)[j]?
      = some (secsPerDay * daysBeforeYear leapByFour startYear (j + 1)) := by
    intro j hj
    rw [List.getElem?_drop, Nat.add_comm 1 j]
    exact yearSecsAccu_get (by omega)
  -- the table without its first entry: index `j` is the start of year `j + 1`
  obtain ⟨k, hk, hk3, hle, hlt⟩ := whileAbove_spec htbl (x := r) (by
    rw [daysBeforeYear_leapByFour]; exact hr)
  refine ⟨k, hk3, hk, ?_, ?_, hle⟩
  · cases k with
    | zero => exact Nat.zero_le r
    | succ k => exact (hlt k (Nat.lt_succ_self k)).le
  · intro hpos
    cases k with
    | zero => exact hpos
    | succ k => exact hlt k (Nat.lt_succ_self k)

/-- The month step, behind the start of the year. -/
theorem monthStep (year : ℕ) {r : ℕ} (hpos : 0 < r)
    (hr : r ≤ secsPerDay * yearDays leapByFour year) :
    ∃ m, 1 ≤ m ∧ m ≤ 12 ∧ whileAbove r (monthSecsAccu year) = some m ∧
      secsPerDay * daysBeforeMonth leapByFour year m < r ∧
      r ≤ secsPerDay * daysBeforeMonth leapByFour year (m + 1) := by
  rw [← daysBeforeMonth_thirteen] at hr
  obtain ⟨m, hm, hm12, hle, hlt⟩ :=
    whileAbove_spec (fun j hj => monthSecsAccu_get year (m := j) hj) hr
  cases m with
  | zero => exact absurd hle (Nat.not_le.mpr hpos)
  | succ k => exact ⟨k + 1, by omega, hm12, hm, hlt k (Nat.lt_succ_self k), hle⟩

/-! ### Splitting a count -/

/-- The seconds of a date behind the first of its month; negative on day 0. -/
def TDateTime.secsIntoMonth (dt : TDateTime) : ℤ :=
  (dt.day.toNat - 1) * 86400 + dt.hour.toNat * 3600 + dt.min.toNat * 60 + dt.sec.toNat

/-- Four years on, the calendar repeats. -/
theorem secsPerDay_mul_daysBeforeYear (q k : ℕ) :
    secsPerDay * daysBeforeYear leapByFour startYear (4 * q + k)
      = q * secsPerFourYear + secsPerDay * daysBeforeYear leapByFour startYear k := by
  simp only [daysBeforeYear_leapByFour, secsPerDay, secsPerFourYear]
  omega

theorem yearDays_leapByFour_add (q k : ℕ) :
    yearDays leapByFour (startYear + (q * 4 + k)) = yearDays leapByFour (startYear + k) := by
  have h : (startYear + (q * 4 + k)) % 4 = (startYear + k) % 4 := by omega
  unfold yearDays leapByFour
  rw [h]

theorem ymd2Wday_of_le {year month days : ℕ} (h : month ≤ 12) :
    ∃ w, ymd2Wday year month days = some w := by
  unfold ymd2Wday
  rw [if_pos (show month ≤ mdays.length from h)]
  exact ⟨_, rfl⟩

/-- The date `datetime_convert` stores, from the month and the seconds left over. -/
def splitDate (year m d w : ℕ) : TDateTime where
  year := UInt16.ofNat year
  mon := UInt8.ofNat m
  day := UInt8.ofNat (d / secsPerDay + 1)
  week := UInt8.ofNat w
  hour := UInt8.ofNat (d % secsPerDay / 3600)
  min := UInt8.ofNat (d % secsPerDay % 3600 / 60)
  sec := UInt8.ofNat (d % secsPerDay % 3600 % 60)

/-- What `datetime_convert` computes, from what its two loops find. -/
theorem datetimeConvert_of_steps {t : UInt32} {k Y year m B : ℕ}
    (hk : whileAbove (t.toNat % secsPerFourYear) (yearSecsAccu.drop 1) = some k)
    (hY : yearSecsAccu[k]? = some Y)
    (hyear : year = startYear + (t.toNat / secsPerFourYear * 4 + k)) (hyear16 : year < 65536)
    (hm : whileAbove (t.toNat % secsPerFourYear - Y) (monthSecsAccu year) = some m)
    (hm12 : 1 ≤ m ∧ m ≤ 12) (hB : (monthSecsAccu year)[m - 1]? = some B) :
    ∃ w, datetimeConvert t = some (splitDate year m (t.toNat % secsPerFourYear - Y - B) w) := by
  have hnat : (UInt16.ofNat year).toNat = year := UInt16.toNat_ofNat_of_lt' hyear16
  obtain ⟨w, hw⟩ := @ymd2Wday_of_le year m
    (UInt8.ofNat ((t.toNat % secsPerFourYear - Y - B) / secsPerDay + 1)).toNat hm12.2
  refine ⟨w, ?_⟩
  unfold datetimeConvert
  simp only [hk, hY, ← hyear, hnat, Option.bind_eq_bind, Option.bind_some]
  show (whileAbove (t.toNat % secsPerFourYear - Y) (monthSecsAccu year)).bind _ = _
  simp only [hm, Option.bind_some]
  rw [if_neg (by omega : ¬ m = 0)]
  show ((monthSecsAccu year)[m - 1]?).bind _ = _
  rw [hB, Option.bind_some, hw]
  rfl

/-- **Splitting.**  A count that is not a multiple of four years lies behind the
beginning of the month returned, and not behind its end. -/
theorem datetimeConvert_eq_splitDate {t : UInt32} (h : t.toNat % secsPerFourYear ≠ 0) :
    ∃ year m d w, datetimeConvert t = some (splitDate year m d w) ∧
      (startYear ≤ year ∧ year ≤ startYear + 4 * (t.toNat / secsPerFourYear) + 3) ∧
      (1 ≤ m ∧ m ≤ 12) ∧ (0 < d ∧ d ≤ secsOfMonth year m) ∧ t.toNat = secsBefore year m + d := by
  have ht := t.toNat_lt
  have hqr := Nat.div_add_mod' t.toNat secsPerFourYear
  have hrlt : t.toNat % secsPerFourYear < secsPerFourYear := Nat.mod_lt _ (by decide)
  obtain ⟨q, hq⟩ : ∃ q, q = t.toNat / secsPerFourYear := ⟨_, rfl⟩
  obtain ⟨r, hr⟩ : ∃ r, r = t.toNat % secsPerFourYear := ⟨_, rfl⟩
  rw [← hr] at h hrlt
  rw [← hq, ← hr] at hqr
  -- the year
  obtain ⟨k, hk3, hk, -, hklt, hkle⟩ := yearStep hrlt.le
  have hY := hklt (Nat.pos_of_ne_zero h)
  have hfour := secsPerDay_mul_daysBeforeYear q k
  obtain ⟨Y, hYdef⟩ : ∃ Y, Y = secsPerDay * daysBeforeYear leapByFour startYear k := ⟨_, rfl⟩
  obtain ⟨year, hyear⟩ : ∃ year, year = startYear + (q * 4 + k) := ⟨_, rfl⟩
  have hYnext : secsPerDay * daysBeforeYear leapByFour startYear (k + 1)
      = Y + secsPerDay * yearDays leapByFour year := by
    rw [hyear, yearDays_leapByFour_add, hYdef, ← Nat.mul_add]
    rfl
  rw [← hYdef] at hY hfour
  -- the month
  obtain ⟨m, hm1, hm12, hm, hmlt, hmle⟩ := monthStep year (r := r - Y) (by omega) (by omega)
  rw [daysBeforeMonth_succ _ hm1, Nat.mul_add] at hmle
  have hgetB := monthSecsAccu_get year (m := m - 1) (by omega)
  rw [Nat.sub_add_cancel hm1] at hgetB
  obtain ⟨B, hB⟩ : ∃ B, B = secsPerDay * daysBeforeMonth leapByFour year m := ⟨_, rfl⟩
  have hbefore : secsBefore year m = q * secsPerFourYear + Y + B := by
    have hn : year - startYear = 4 * q + k := by omega
    have hn' : startYear + (4 * q + k) = year := by omega
    rw [secsBefore, hn, monthStart, hn', Nat.mul_add, hfour, hB]
  rw [← hB] at hgetB hmlt hmle
  -- the date
  have hyear16 : year < 65536 := by
    simp only [hyear, startYear, secsPerFourYear] at hqr ⊢
    omega
  have hgetY := yearSecsAccu_get (show k ≤ 4 by omega)
  rw [← hYdef] at hgetY
  obtain ⟨w, hconv⟩ := datetimeConvert_of_steps (hr ▸ hk) hgetY (hq ▸ hyear) hyear16 (hr ▸ hm)
    ⟨hm1, hm12⟩ hgetB
  refine ⟨year, m, r - Y - B, w, hr ▸ hconv, by omega, ⟨hm1, hm12⟩, ⟨by omega, ?_⟩, by omega⟩
  show r - Y - B ≤ secsPerDay * monthDays leapByFour year m
  omega

/-- At a multiple of four years the code reads in front of the month table. -/
theorem datetimeConvert_eq_none {t : UInt32} (h : t.toNat % secsPerFourYear = 0) :
    datetimeConvert t = none := by
  have hyear : whileAbove 0 (yearSecsAccu.drop 1) = some 0 := rfl
  have hmonth : ∀ year, whileAbove 0 (monthSecsAccu year) = some 0 := by
    intro year
    unfold monthSecsAccu
    split <;> rfl
  unfold datetimeConvert
  simp only [h, hyear, Option.bind_eq_bind, Option.bind_some]
  show (whileAbove (0 - 0) (monthSecsAccu _)).bind _ = none
  rw [hmonth]
  rfl

/-- What `datetime_convert` makes of the count `t`. -/
structure ConvertOf (t : ℕ) (dt : TDateTime) : Prop where
  year : startYear ≤ dt.year.toNat ∧ dt.year.toNat ≤ startYear + 4 * (t / secsPerFourYear) + 3
  mon : 1 ≤ dt.mon.toNat ∧ dt.mon.toNat ≤ 12
  day : 1 ≤ dt.day.toNat ∧ dt.day.toNat ≤ 32
  hour : dt.hour.toNat < 24
  min : dt.min.toNat < 60
  sec : dt.sec.toNat < 60
  count : (t : ℤ) = secsBefore dt.year.toNat dt.mon.toNat + dt.secsIntoMonth
  inMonth : 0 < dt.secsIntoMonth ∧ dt.secsIntoMonth ≤ secsOfMonth dt.year.toNat dt.mon.toNat


theorem datetimeConvert_spec {t : UInt32} (h : t.toNat % secsPerFourYear ≠ 0) :
    ∃ dt, datetimeConvert t = some dt ∧ ConvertOf t.toNat dt := by
  have ht := t.toNat_lt
  obtain ⟨year, m, d, w, hconv, hyear, hm, hd, hcount⟩ := datetimeConvert_eq_splitDate h
  -- everything fits its unsigned char, the day up to 32
  have hd31 : d ≤ secsPerDay * 31 := hd.2.trans (Nat.mul_le_mul_left _ (monthDays_le year m))
  simp only [secsPerDay] at hd31
  have hy16 : (UInt16.ofNat year).toNat = year :=
    UInt16.toNat_ofNat_of_lt' (by simp only [startYear, secsPerFourYear, UInt16.size] at hyear ⊢; omega)
  have h8 : ∀ n < 256, (UInt8.ofNat n).toNat = n := fun n hn => UInt8.toNat_ofNat_of_lt' hn
  have hmon := h8 m (by omega)
  have hday := h8 (d / 86400 + 1) (by omega)
  have hhour := h8 (d % 86400 / 3600) (by omega)
  have hmin := h8 (d % 86400 % 3600 / 60) (by omega)
  have hsec := h8 (d % 86400 % 3600 % 60) (by omega)
  have hinto : (splitDate year m d w).secsIntoMonth = d := by
    simp only [TDateTime.secsIntoMonth, splitDate, hday, hhour, hmin, hsec, secsPerDay]
    omega
  refine ⟨_, hconv, ?_⟩
  constructor
  · simpa only [splitDate, hy16] using hyear
  · simpa only [splitDate, hmon] using hm
  · simp only [splitDate, hday, secsPerDay]; omega
  · simp only [splitDate, hhour, secsPerDay]; omega
  · simp only [splitDate, hmin, secsPerDay]; omega
  · simp only [splitDate, hsec, secsPerDay]; omega
  · rw [hinto]
    simp only [splitDate, hy16, hmon]
    omega
  · rw [hinto]
    simp only [splitDate, hy16, hmon]
    omega

theorem ConvertOf.of_eq_some {t : UInt32} {dt : TDateTime} (h : datetimeConvert t = some dt) :
    ConvertOf t.toNat dt := by
  by_cases hmod : t.toNat % secsPerFourYear = 0
  · rw [datetimeConvert_eq_none hmod] at h
    cases h
  · obtain ⟨dt', hconv, hspec⟩ := datetimeConvert_spec hmod
    rwa [Option.some.inj (h.symm.trans hconv)]

/-! ### Counting a date -/

/-- The closed form of `datetime_mktime`, without wrap-around. -/
def closedForm (year mon : ℕ) : ℕ := year / 4 - year / 100 + year / 400 + 367 * mon / 12 + year * 365

theorem dayNumber_toNat {a b : ℕ} (h : 730456 ≤ a + b) (h' : a + b < 2 ^ 32) :
    (UInt32.ofNat a + UInt32.ofNat b - 730456).toNat = a + b - 730456 := by
  simp only [UInt32.toNat_add, UInt32.toNat_sub, UInt32.toNat_ofNat', UInt32.reduceToNat]
  omega

theorem timeOfDay_toNat {n : UInt32} {h m s : UInt8} :
    (((n * 24 + h.toUInt32) * 60 + m.toUInt32) * 60 + s.toUInt32).toNat
      = (((n.toNat * 24 + h.toNat) * 60 + m.toNat) * 60 + s.toNat) % 2 ^ 32 := by
  have hh := h.toNat_lt
  have hm := m.toNat_lt
  have hs := s.toNat_lt
  simp only [UInt32.toNat_add, UInt32.toNat_mul, UInt8.toNat_toUInt32, UInt32.reduceToNat]
  omega

/-- `datetime_mktime` evaluates the closed form at the shifted year and month, modulo 2^32. -/
theorem datetimeMktime_mod {dt : TDateTime} {year mon : ℕ}
    (hyear : (datetimeMktime dt).2.year.toNat = year) (hmon : (datetimeMktime dt).2.mon.toNat = mon)
    (hlo : 730456 ≤ closedForm year mon) :
    ((datetimeMktime dt).1.toNat : ℤ)
      = (((closedForm year mon : ℤ) - 730455) * 86400 + dt.secsIntoMonth) % 2 ^ 32 := by
  obtain ⟨dt', hdt'⟩ : ∃ dt', dt' = (datetimeMktime dt).2 := ⟨_, rfl⟩
  have hfst : (datetimeMktime dt).1 = (((UInt32.ofNat (dt'.year.toNat / 4 - dt'.year.toNat / 100
      + dt'.year.toNat / 400 + 367 * dt'.mon.toNat / 12 + dt'.day.toNat)
      + UInt32.ofNat (dt'.year.toNat * 365) - 730456) * 24
      + dt'.hour.toUInt32) * 60 + dt'.min.toUInt32) * 60 + dt'.sec.toUInt32 := by
    rw [hdt']
    rfl
  -- the shift touches the year and the month only
  have hsame : dt'.day = dt.day ∧ dt'.hour = dt.hour ∧ dt'.min = dt.min ∧ dt'.sec = dt.sec := by
    rw [hdt']
    unfold datetimeMktime
    dsimp only
    split <;> exact ⟨rfl, rfl, rfl, rfl⟩
  obtain ⟨hd, hh, hm, hs⟩ := hsame
  have hday := dt.day.toNat_lt
  have hyear16 := dt'.year.toNat_lt
  have hmon8 := dt'.mon.toNat_lt
  rw [← hdt'] at hyear hmon
  rw [hyear] at hyear16
  rw [hmon] at hmon8
  simp only [closedForm] at hlo
  rw [hfst, hd, hh, hm, hs, hyear, hmon]
  have hdays := @dayNumber_toNat (year / 4 - year / 100 + year / 400 + 367 * mon / 12 + dt.day.toNat)
    (year * 365) (by omega) (by omega)
  rw [timeOfDay_toNat, hdays]
  simp only [closedForm, TDateTime.secsIntoMonth]
  omega

/-- The same where nothing wraps. -/
theorem datetimeMktime_of_shift {dt : TDateTime} {year mon : ℕ}
    (hyear : (datetimeMktime dt).2.year.toNat = year) (hmon : (datetimeMktime dt).2.mon.toNat = mon)
    (hlo : 730456 ≤ closedForm year mon) (hhi : closedForm year mon ≤ 779000) :
    ((datetimeMktime dt).1.toNat : ℤ)
      = ((closedForm year mon : ℤ) - 730455) * 86400 + dt.secsIntoMonth := by
  have hday := dt.day.toNat_lt
  have hhour := dt.hour.toNat_lt
  have hmin := dt.min.toNat_lt
  have hsec := dt.sec.toNat_lt
  rw [datetimeMktime_mod hyear hmon hlo]
  apply Int.emod_eq_of_lt <;> simp only [TDateTime.secsIntoMonth] <;> omega

/-- The month shift: February is the last month of the year before, and every
other month goes back by two in an unsigned char. -/
theorem datetimeMktime_shift (dt : TDateTime) :
    (dt.mon.toNat = 2 → (datetimeMktime dt).2.year = dt.year - 1 ∧
      (datetimeMktime dt).2.mon.toNat = 12) ∧
    (dt.mon.toNat ≠ 2 → (datetimeMktime dt).2.year = dt.year ∧
      (datetimeMktime dt).2.mon.toNat = (dt.mon.toNat + 254) % 256) := by
  have hm := dt.mon.toNat_lt
  have hsub : (dt.mon - 2).toNat = (dt.mon.toNat + 254) % 256 := by
    rw [UInt8.toNat_sub]
    show (256 - 2 + dt.mon.toNat) % 256 = _
    omega
  unfold datetimeMktime
  dsimp only
  constructor
  · intro h2
    -- February: the test succeeds
    have hzero : (dt.mon - 2).toNat = 0 := by rw [hsub, h2]
    rw [if_pos hzero.le]
    refine ⟨rfl, ?_⟩
    show (dt.mon - 2 + 12).toNat = 12
    rw [UInt8.toNat_add, hzero]
    rfl
  · intro h2
    -- the test fails, for January because 255 is not 0
    rw [if_neg (by omega)]
    exact ⟨rfl, hsub⟩

/-- The days of a year before a month, from March on, and in February counted from
the year before. -/
theorem daysBeforeMonth_closed {leap : ℕ → Bool} (year : ℕ) {m : ℕ} (hm : 3 ≤ m ∧ m ≤ 12) :
    daysBeforeMonth leap year m + 30 = 367 * (m - 2) / 12 + yearDays leap year - 306 := by
  obtain ⟨h3, h12⟩ := hm
  by_cases h : leap year = true
  · interval_cases m <;> simp [daysBeforeMonth, monthDays, yearDays, h]
  · interval_cases m <;> simp [daysBeforeMonth, monthDays, yearDays, h]

/-- **Counting**, from February on. -/
theorem datetimeMktime_toNat {dt : TDateTime} (hy : 2000 ≤ dt.year.toNat ∧ dt.year.toNat ≤ 2099)
    (hm : 2 ≤ dt.mon.toNat ∧ dt.mon.toNat ≤ 12) :
    ((datetimeMktime dt).1.toNat : ℤ)
      = secsBefore dt.year.toNat dt.mon.toNat + dt.secsIntoMonth := by
  obtain ⟨hfeb, hlater⟩ := datetimeMktime_shift dt
  obtain ⟨n, hn⟩ : ∃ n, dt.year.toNat = 2000 + n := ⟨_, (Nat.add_sub_of_le hy.1).symm⟩
  have hstart : dt.year.toNat - startYear = n := by simp only [startYear]; omega
  by_cases h2 : dt.mon.toNat = 2
  · obtain ⟨hyear, hmon⟩ := hfeb h2
    have hyear' : (datetimeMktime dt).2.year.toNat = 1999 + n := by
      rw [hyear, UInt16.toNat_sub, hn]
      show (65536 - 1 + (2000 + n)) % 65536 = _
      omega
    rw [datetimeMktime_of_shift hyear' hmon (by simp only [closedForm]; omega)
      (by simp only [closedForm]; omega), secsBefore, hstart, monthStart, daysBeforeYear_leapByFour, h2]
    show _ = ((secsPerDay * (365 * n + (n + 3) / 4 + 31) : ℕ) : ℤ) + _
    simp only [closedForm, secsPerDay]
    omega
  · obtain ⟨hyear, hmon⟩ := hlater h2
    have hmon' : (datetimeMktime dt).2.mon.toNat = dt.mon.toNat - 2 := by rw [hmon]; omega
    have hbefore := @daysBeforeMonth_closed leapByFour (startYear + n) dt.mon.toNat (by omega)
    have hdays : yearDays leapByFour (startYear + n) = 365 + ((n + 4) / 4 - (n + 3) / 4) := by
      have := daysBeforeYear_leapByFour (n + 1)
      rw [daysBeforeYear, daysBeforeYear_leapByFour] at this
      omega
    rw [datetimeMktime_of_shift (by rw [hyear]) hmon' (by simp only [closedForm]; omega)
      (by simp only [closedForm]; omega), secsBefore, hstart, monthStart, daysBeforeYear_leapByFour]
    simp only [closedForm, secsPerDay]
    omega

/-- **In January** the month becomes 255, and more than a year is added. -/
theorem datetimeMktime_january {dt : TDateTime} (hy : 2000 ≤ dt.year.toNat ∧ dt.year.toNat ≤ 2099)
    (hm : dt.mon.toNat = 1) :
    (secsBefore dt.year.toNat 1 : ℤ) + dt.secsIntoMonth + 7827 * 86400
      ≤ (datetimeMktime dt).1.toNat := by
  obtain ⟨hyear, hmon⟩ := (datetimeMktime_shift dt).2 (by omega)
  rw [hm] at hmon
  obtain ⟨n, hn⟩ : ∃ n, dt.year.toNat = 2000 + n := ⟨_, (Nat.add_sub_of_le hy.1).symm⟩
  have hstart : dt.year.toNat - startYear = n := by simp only [startYear]; omega
  rw [datetimeMktime_of_shift (by rw [hyear]) hmon (by simp only [closedForm]; omega)
    (by simp only [closedForm]; omega), secsBefore, hstart, monthStart, daysBeforeYear_leapByFour]
  show ((secsPerDay * (365 * n + (n + 3) / 4 + 0) : ℕ) : ℤ) + _ + _ ≤ _
  simp only [closedForm, secsPerDay]
  omega

/-! ### Set, then get -/

/-- The same year, month, day, hour, minute and second. -/
def TDateTime.SameTime (dt dt' : TDateTime) : Prop :=
  dt.year = dt'.year ∧ dt.mon = dt'.mon ∧ dt.day = dt'.day ∧
    dt.hour = dt'.hour ∧ dt.min = dt'.min ∧ dt.sec = dt'.sec

theorem TDateTime.SameTime.datetimeZip_eq {dt dt' : TDateTime} (h : dt.SameTime dt') :
    datetimeZip dt = datetimeZip dt' := by
  obtain ⟨hy, hm, hd, hh, hmi, hs⟩ := h
  rw [datetimeZip, datetimeZip, hy, hm, hd, hh, hmi, hs]

/-- The dates the clock keeps: not in January, of the time of a day, behind the
midnight that begins the month and not behind the one that ends it. -/
def TDateTime.Kept (dt : TDateTime) : Prop :=
  dt.mon ≠ 1 ∧ 1 ≤ dt.day ∧ dt.hour < 24 ∧ dt.min < 60 ∧
    0 < dt.secsIntoMonth ∧ dt.secsIntoMonth ≤ secsOfMonth dt.year.toNat dt.mon.toNat

/-- What `valid_datetime` checks. -/
theorem validDatetime_iff (dt : TDateTime) :
    validDatetime dt = true ↔
      (2012 ≤ dt.year.toNat ∧ dt.year.toNat ≤ 2022) ∧ (1 ≤ dt.mon.toNat ∧ dt.mon.toNat ≤ 12) ∧
        dt.day.toNat ≤ 31 ∧ dt.hour.toNat ≤ 24 ∧ dt.min.toNat ≤ 60 ∧ dt.sec.toNat ≤ 59 := by
  simp only [validDatetime, UInt16.lt_iff_toNat_lt, UInt8.lt_iff_toNat_lt, gt_iff_lt,
    UInt16.reduceToNat, UInt8.reduceToNat]
  split_ifs <;> simp <;> omega

/-- A date that comes back in its own month was counted without the wrap, and
comes back at its own seconds. -/
theorem ConvertOf.of_same_month {dt dt' : TDateTime} (hv : validDatetime dt = true)
    (h : ConvertOf (datetimeMktime dt).1.toNat dt') (hyear : dt'.year = dt.year)
    (hmon : dt'.mon = dt.mon) :
    dt.mon.toNat ≠ 1 ∧ dt'.secsIntoMonth = dt.secsIntoMonth := by
  obtain ⟨hy, hm, -⟩ := (validDatetime_iff dt).mp hv
  have hcount := h.count
  have hin := h.inMonth.2
  rw [hyear, hmon] at hcount hin
  have hlen : secsOfMonth dt.year.toNat dt.mon.toNat ≤ 86400 * 31 :=
    Nat.mul_le_mul_left _ (monthDays_le _ _)
  have hlow : -86400 ≤ dt.secsIntoMonth := by simp only [TDateTime.secsIntoMonth]; omega
  -- a January would come back more than a month later
  have hne : dt.mon.toNat ≠ 1 := by
    intro h1
    have hjan := datetimeMktime_january (by omega) h1
    rw [h1] at hcount hlen hin
    omega
  refine ⟨hne, ?_⟩
  have := @datetimeMktime_toNat dt (by omega) (by omega)
  omega

/-- A count belongs to one month, and to one second of it. -/
theorem secsBefore_unique {t y m y' m' : ℕ} {s s' : ℤ} (hy : startYear ≤ y) (hy' : startYear ≤ y')
    (hm : 1 ≤ m ∧ m ≤ 12) (hm' : 1 ≤ m' ∧ m' ≤ 12)
    (ht : (t : ℤ) = secsBefore y m + s) (hs : 0 < s ∧ s ≤ secsOfMonth y m)
    (ht' : (t : ℤ) = secsBefore y' m' + s') (hs' : 0 < s' ∧ s' ≤ secsOfMonth y' m') :
    y = y' ∧ m = m' ∧ s = s' := by
  have bounds : ∀ {y m : ℕ} {s : ℤ}, startYear ≤ y → (t : ℤ) = secsBefore y m + s →
      0 < s ∧ s ≤ secsOfMonth y m →
      secsPerDay * monthStart leapByFour startYear (y - startYear) m < t ∧
        t ≤ secsPerDay * (monthStart leapByFour startYear (y - startYear) m
          + monthDays leapByFour (startYear + (y - startYear)) m) := by
    intro y m s hy ht hs
    rw [Nat.add_sub_cancel' hy, Nat.mul_add]
    simp only [secsBefore, secsOfMonth] at ht hs
    omega
  obtain ⟨hn, rfl⟩ := month_unique hm hm' (bounds hy ht hs) (bounds hy' ht' hs')
  have hyy : y = y' := by omega
  subst hyy
  exact ⟨rfl, rfl, by omega⟩

/-- No kept date is counted as a multiple of four years: that instant ends the last
day of a December. -/
theorem mod_secsPerFourYear_ne_zero {t y m : ℕ} {s : ℤ} (hy : startYear ≤ y)
    (hm : 1 ≤ m ∧ m ≤ 12) (ht : (t : ℤ) = secsBefore y m + s)
    (hs : 0 < s ∧ s ≤ secsOfMonth y m) (hs31 : s < 86400 * 31) : t % secsPerFourYear ≠ 0 := by
  intro hmod
  obtain ⟨q, hq⟩ : ∃ q, t = q * secsPerFourYear :=
    ⟨_, (Nat.div_mul_cancel (Nat.dvd_of_mod_eq_zero hmod)).symm⟩
  have hqpos : q ≠ 0 := by
    rintro rfl
    omega
  obtain ⟨k, rfl⟩ := Nat.exists_eq_succ_of_ne_zero hqpos
  -- the year `4 k + 3` ends with the multiple
  have hdec : t = secsBefore (startYear + (4 * k + 3)) 12
      + secsOfMonth (startYear + (4 * k + 3)) 12 := by
    have h13 := @daysBeforeMonth_succ leapByFour (startYear + (4 * k + 3)) 12 (by decide)
    have hyear : daysBeforeYear leapByFour startYear (4 * k + 3)
        + yearDays leapByFour (startYear + (4 * k + 3))
          = daysBeforeYear leapByFour startYear (4 * (k + 1) + 0) := rfl
    have hfour := secsPerDay_mul_daysBeforeYear (k + 1) 0
    rw [daysBeforeMonth_thirteen] at h13
    rw [secsBefore, secsOfMonth, ← Nat.mul_add, Nat.add_sub_cancel_left, monthStart, Nat.add_assoc,
      ← h13, hyear, hfour, hq]
    simp [daysBeforeYear]
  have h31 : secsOfMonth (startYear + (4 * k + 3)) 12 = 86400 * 31 := rfl
  obtain ⟨-, -, heq⟩ := secsBefore_unique hy (Nat.le_add_right _ _) hm ⟨by decide, le_refl 12⟩ ht hs
    (by rw [hdec]; exact Nat.cast_add _ _) ⟨by rw [h31]; decide, le_refl _⟩
  rw [h31] at heq
  omega

/-- The day and the time of day can be read off the seconds into the month. -/
theorem TDateTime.SameTime.of_secsIntoMonth {dt dt' : TDateTime} (hyear : dt'.year = dt.year)
    (hmon : dt'.mon = dt.mon) (hinto : dt'.secsIntoMonth = dt.secsIntoMonth)
    (h : dt.hour.toNat < 24 ∧ dt.min.toNat < 60 ∧ dt.sec.toNat < 60)
    (h' : dt'.hour.toNat < 24 ∧ dt'.min.toNat < 60 ∧ dt'.sec.toNat < 60) : dt'.SameTime dt := by
  simp only [TDateTime.secsIntoMonth] at hinto
  refine ⟨hyear, hmon, ?_, ?_, ?_, ?_⟩ <;> apply UInt8.toNat_inj.mp <;> omega

/-- **Set, then get**, on the two functions. -/
theorem datetimeConvert_datetimeMktime_iff {dt : TDateTime} (hv : validDatetime dt = true) :
    (∃ dt', datetimeConvert (datetimeMktime dt).1 = some dt' ∧ dt'.SameTime dt) ↔ dt.Kept := by
  obtain ⟨hy, hm, hday, hhour, hmin, hsec⟩ := (validDatetime_iff dt).mp hv
  constructor
  · rintro ⟨dt', hconv, hyear, hmon, hd, hh, hmi, hs⟩
    have hspec := ConvertOf.of_eq_some hconv
    obtain ⟨hne, hinto⟩ := hspec.of_same_month hv hyear hmon
    have hin := hspec.inMonth
    rw [hinto, hyear, hmon] at hin
    refine ⟨fun h => hne (by rw [h]; rfl), ?_, ?_, ?_, hin⟩
    · rw [← hd]; exact UInt8.le_iff_toNat_le.mpr hspec.day.1
    · rw [← hh]; exact UInt8.lt_iff_toNat_lt.mpr hspec.hour
    · rw [← hmi]; exact UInt8.lt_iff_toNat_lt.mpr hspec.min
  · rintro ⟨hjan, hd1, hh24, hm60, hin⟩
    have hmon : dt.mon.toNat ≠ 1 := fun h => hjan (UInt8.toNat_inj.mp h)
    have hh24' := UInt8.lt_iff_toNat_lt.mp hh24
    have hm60' := UInt8.lt_iff_toNat_lt.mp hm60
    simp only [UInt8.reduceToNat] at hh24' hm60'
    have hyear : startYear ≤ dt.year.toNat := by simp only [startYear]; omega
    -- the count lies in the month of `dt`, and a count lies in one month only
    have hcount := @datetimeMktime_toNat dt (by omega) (by omega)
    have hmod := mod_secsPerFourYear_ne_zero hyear hm hcount hin
      (by simp only [TDateTime.secsIntoMonth]; omega)
    obtain ⟨dt', hconv, hspec⟩ := datetimeConvert_spec hmod
    obtain ⟨hy', hm', hinto⟩ := secsBefore_unique hspec.year.1 hyear hspec.mon hm
      hspec.count hspec.inMonth hcount hin
    exact ⟨dt', hconv, .of_secsIntoMonth (UInt16.toNat_inj.mp hy') (UInt8.toNat_inj.mp hm') hinto
      ⟨hh24', hm60', by omega⟩ ⟨hspec.hour, hspec.min, hspec.sec⟩⟩

/-- The counts of the dates accepted stay below sixteen times four years. -/
theorem datetimeMktime_lt {dt : TDateTime} (hv : validDatetime dt = true) :
    (datetimeMktime dt).1.toNat < 16 * secsPerFourYear := by
  obtain ⟨hy, hm, hday, hhour, hmin, hsec⟩ := (validDatetime_iff dt).mp hv
  obtain ⟨hfeb, hlater⟩ := datetimeMktime_shift dt
  obtain ⟨y, hyear⟩ : ∃ y, y = (datetimeMktime dt).2.year.toNat := ⟨_, rfl⟩
  obtain ⟨m, hmon⟩ : ∃ m, m = (datetimeMktime dt).2.mon.toNat := ⟨_, rfl⟩
  have hshift : 2011 ≤ y ∧ y ≤ 2022 ∧ m ≤ 255 := by
    by_cases h2 : dt.mon.toNat = 2
    · obtain ⟨h, h'⟩ := hfeb h2
      have hsub : (dt.year - 1).toNat = dt.year.toNat - 1 :=
        UInt16.toNat_sub_of_le _ _ (UInt16.le_iff_toNat_le.mpr (show 1 ≤ _ by omega))
      rw [hyear, hmon, h, h', hsub]
      omega
    · obtain ⟨h, h'⟩ := hlater h2
      rw [hyear, hmon, h, h']
      omega
  have hcount := datetimeMktime_of_shift hyear.symm hmon.symm (by simp only [closedForm]; omega)
    (by simp only [closedForm]; omega)
  simp only [closedForm, TDateTime.secsIntoMonth, secsPerFourYear] at hcount ⊢
  omega

/-! ### On the clock -/

/-- `set_datetime(dt)` and then `get_datetime` succeed, and the same time is read. -/
def SetGet (counter : UInt32) (dt out : TDateTime) : Prop :=
  (setDatetime (Rtc.stm32 counter) dt).1 = true ∧
    ∃ dt' c, getDatetime (setDatetime (Rtc.stm32 counter) dt).2.2 out = some (true, dt', c) ∧
      dt'.SameTime dt

/-- `set_zipdatetime(z)` and then `get_zipdatetime` succeed, and `z` is read; `dt` and
`dt'` are their local variables, `out` what the result overwrites. -/
def SetGetZip (counter z : UInt32) (dt dt' : TDateTime) (out : UInt32) : Prop :=
  (setZipdatetime (Rtc.stm32 counter) dt z).1 = true ∧
    ∃ c, getZipdatetime (setZipdatetime (Rtc.stm32 counter) dt z).2 dt' out = some (true, z, c)

/-- What `get_datetime` reads behind a `set_datetime`. -/
theorem getDatetime_setDatetime (counter : UInt32) (dt out : TDateTime) :
    getDatetime (setDatetime (Rtc.stm32 counter) dt).2.2 out
      = (datetimeConvert (datetimeMktime dt).1).map fun dt' =>
          (true, dt', Rtc.stm32 (datetimeMktime dt).1) := by
  show ((datetimeConvert (datetimeMktime dt).1).map _).map _ = _
  rw [Option.map_map]
  rfl

theorem setGet_iff (counter : UInt32) {dt : TDateTime} (out : TDateTime)
    (hv : validDatetime dt = true) : SetGet counter dt out ↔ dt.Kept := by
  rw [← datetimeConvert_datetimeMktime_iff hv, SetGet, getDatetime_setDatetime]
  constructor
  · rintro ⟨-, dt', c, hget, hsame⟩
    obtain ⟨dt'', hconv, heq⟩ := Option.map_eq_some_iff.mp hget
    obtain ⟨-, rfl, -⟩ := heq
    exact ⟨dt', hconv, hsame⟩
  · rintro ⟨dt', hconv, hsame⟩
    exact ⟨rfl, dt', _, by rw [hconv]; rfl, hsame⟩

/-- What `get_zipdatetime` reads behind a `set_zipdatetime`. -/
theorem setGetZip_iff_zip (counter z : UInt32) (dt dt' : TDateTime) (out : UInt32) :
    SetGetZip counter z dt dt' out ↔
      ∃ d, datetimeConvert (datetimeMktime (datetimeUnzip z dt)).1 = some d ∧ datetimeZip d = z := by
  rw [SetGetZip, setZipdatetime, getZipdatetime, getDatetime_setDatetime, Option.map_map]
  constructor
  · rintro ⟨-, c, hget⟩
    obtain ⟨d, hconv, heq⟩ := Option.map_eq_some_iff.mp hget
    exact ⟨d, hconv, congrArg (fun r => r.2.1) heq⟩
  · rintro ⟨d, hconv, hz⟩
    exact ⟨rfl, _, by rw [hconv, ← hz]; rfl⟩

/-- A date that comes back as the same packed value comes back the same: what the
fields cut off cannot differ. -/
theorem ConvertOf.sameTime_of_zip {d d' : TDateTime} {z : UInt32} (hv : validDatetime d = true)
    (h : ConvertOf (datetimeMktime d).1.toNat d') (hz : datetimeZip d = z)
    (hz' : datetimeZip d' = z) : d'.SameTime d := by
  obtain ⟨hy, hm, hday, hhour, hmin, hsec⟩ := (validDatetime_iff d).mp hv
  have hq : (datetimeMktime d).1.toNat / secsPerFourYear < 16 :=
    Nat.div_lt_of_lt_mul (by rw [Nat.mul_comm]; exact datetimeMktime_lt hv)
  have hyear' := h.year
  have hmon' := h.mon
  have hhour' := h.hour
  have hmin' := h.min
  have hsec' := h.sec
  simp only [startYear] at hyear'
  obtain ⟨hzy, hzm, -, hzh, hzmi, hzs⟩ := (datetimeZip_eq_iff (by omega) z).mp hz
  obtain ⟨hzy', hzm', -, hzh', hzmi', hzs'⟩ := (datetimeZip_eq_iff hyear'.1 z).mp hz'
  have hyear : d'.year = d.year := UInt16.toNat_inj.mp (by omega)
  have hmon : d'.mon = d.mon := UInt8.toNat_inj.mp (by omega)
  obtain ⟨-, hinto⟩ := h.of_same_month hv hyear hmon
  exact .of_secsIntoMonth hyear hmon hinto ⟨by omega, by omega, by omega⟩ ⟨hhour', hmin', hsec'⟩

/-- The packed date survives if and only if the date does. -/
theorem setGetZip_iff (counter : UInt32) {z : UInt32} {dt : TDateTime} (dt' : TDateTime)
    (out : UInt32) (hv : validDatetime (datetimeUnzip z dt) = true) :
    SetGetZip counter z dt dt' out ↔ (datetimeUnzip z dt).Kept := by
  have hzip : datetimeZip (datetimeUnzip z dt) = z := datetimeZip_datetimeUnzip z dt
  rw [setGetZip_iff_zip, ← datetimeConvert_datetimeMktime_iff hv]
  constructor
  · rintro ⟨d', hconv, hz⟩
    exact ⟨d', hconv, (ConvertOf.of_eq_some hconv).sameTime_of_zip hv hzip hz⟩
  · rintro ⟨d', hconv, hsame⟩
    exact ⟨d', hconv, (hsame.datetimeZip_eq).trans hzip⟩

instance (dt : TDateTime) : Decidable dt.Kept :=
  inferInstanceAs (Decidable (dt.mon ≠ 1 ∧ 1 ≤ dt.day ∧ dt.hour < 24 ∧ dt.min < 60 ∧
    0 < dt.secsIntoMonth ∧ dt.secsIntoMonth ≤ secsOfMonth dt.year.toNat dt.mon.toNat))

/-- **Set, then get.**  A date that `valid_datetime` accepts is read back, packed or
not, if and only if it is one the clock keeps. -/
theorem setDatetime_getDatetime_iff (counter : UInt32) :
    (∀ dt out, validDatetime dt = true → (SetGet counter dt out ↔ dt.Kept)) ∧
    (∀ z dt dt' out, validDatetime (datetimeUnzip z dt) = true →
      (SetGetZip counter z dt dt' out ↔ (datetimeUnzip z dt).Kept)) :=
  ⟨fun _ out hv => setGet_iff counter out hv, fun _ _ dt' out hv => setGetZip_iff counter dt' out hv⟩

/-- The date `check_rtc_exist` tries, 2012-05-10 10:12:12, and its packed form. -/
theorem setDatetime_getDatetime_test_date :
    SetGet 0 ⟨2012, 5, 10, 0, 10, 12, 12⟩ ⟨0, 0, 0, 0, 0, 0, 0⟩ ∧
      SetGetZip 0 827630348 ⟨0, 0, 0, 0, 0, 0, 0⟩ ⟨0, 0, 0, 0, 0, 0, 0⟩ 0 :=
  ⟨((setDatetime_getDatetime_iff 0).1 _ _ (by decide)).mpr (by decide),
    ((setDatetime_getDatetime_iff 0).2 _ _ _ _ (by decide)).mpr (by decide)⟩

/-- Noon of 2012-01-15 and the midnight of 2012-02-01 are accepted; read back they are
noon of 2033-06-21 and the 32nd of January. -/
theorem january_and_first_of_month_lost :
    (validDatetime ⟨2012, 1, 15, 0, 12, 0, 0⟩ = true ∧
      datetimeConvert (datetimeMktime ⟨2012, 1, 15, 0, 12, 0, 0⟩).1
        = some ⟨2033, 6, 21, 2, 12, 0, 0⟩ ∧
      ¬ SetGet 0 ⟨2012, 1, 15, 0, 12, 0, 0⟩ ⟨0, 0, 0, 0, 0, 0, 0⟩) ∧
    (validDatetime ⟨2012, 2, 1, 0, 0, 0, 0⟩ = true ∧
      datetimeConvert (datetimeMktime ⟨2012, 2, 1, 0, 0, 0, 0⟩).1 = some ⟨2012, 1, 32, 3, 0, 0, 0⟩ ∧
      ¬ SetGet 0 ⟨2012, 2, 1, 0, 0, 0, 0⟩ ⟨0, 0, 0, 0, 0, 0, 0⟩) := by
  refine ⟨⟨by decide, by decide, ?_⟩, ⟨by decide, by decide, ?_⟩⟩
  · intro h
    exact absurd ((setGet_iff 0 _ (by decide)).mp h) (by decide)
  · intro h
    exact absurd ((setGet_iff 0 _ (by decide)).mp h) (by decide)

end Start01
