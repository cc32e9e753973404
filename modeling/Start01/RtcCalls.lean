/-
Start01/RtcCalls.lean

What the calls of datetime.c do to the clock and to the dates they are given.

`get_datetime` and `get_zipdatetime` only read the counter.  The six getters do not: they call
`set_datetime` of the device with a local variable that nobody has written, so that the counter
becomes whatever date that variable stands for, and a field of that date is returned
(`getField_stm32`).  And `set_datetime` never leaves its argument alone, since
`datetime_mktime` shifts the month in place (`setDatetime_ne`).

The packed form of a date loses nothing in either direction (`zip_unzip`).
-/
import Start01.DateRoundTrip

namespace Start01

/-! ### What the calls change -/

/-- A getter leaves the clock alone, and returns the field of the date that it shows. -/
def Reads {α : Type} (get : Rtc → TDateTime → α × Rtc) (field : TDateTime → α) (c : Rtc)
    (dt : TDateTime) : Prop :=
  (get c dt).2 = c ∧ ∀ r, getDatetime c dt = some r → r.1 = true → (get c dt).1 = field r.2.1

/-- What the calls may change, in one state of the clock.  `dt` and `zdt` are the caller's, and
`loc` is a local variable; `set_zipdatetime` has no access to `*zdt` but a read. -/
structure CallsOk (c : Rtc) (dt : TDateTime) (zdt : UInt32) (loc : TDateTime) : Prop where
  getDatetime : ∀ r, getDatetime c dt = some r → r.2.2 = c
  getZipdatetime : ∀ r, getZipdatetime c loc zdt = some r → r.2.2 = c
  year : Reads getYear TDateTime.year c loc
  mon : Reads getMon TDateTime.mon c loc
  day : Reads getDay TDateTime.day c loc
  hour : Reads getHour TDateTime.hour c loc
  min : Reads getMin TDateTime.min c loc
  sec : Reads getSec TDateTime.sec c loc
  setDatetime : (setDatetime c dt).2.1 = dt ∧ (setDatetime c dt).2.2.rtcDev = c.rtcDev
  setZipdatetime : (setZipdatetime c loc zdt).2.rtcDev = c.rtcDev

variable {c : Rtc} {dt loc : TDateTime} {zdt : UInt32} {α : Type} [OfNat α 0]

theorem getDatetime_stm32 (hdev : c.rtcDev = some stm32rtc) (dt : TDateTime) :
    getDatetime c dt = (datetimeConvert c.counter).map fun now => (true, now, c) := by
  obtain ⟨rtcDev, counter⟩ := c
  obtain rfl : rtcDev = some stm32rtc := hdev
  show ((datetimeConvert counter).map _).map _ = _
  rw [Option.map_map]
  rfl

theorem getDatetime_none (hdev : c.rtcDev = none) (dt : TDateTime) :
    getDatetime c dt = some (false, dt, c) := by
  simp only [Start01.getDatetime, hdev]

/-- `get_datetime` only reads. -/
theorem getDatetime_kept (hdev : c.rtcDev = none ∨ c.rtcDev = some stm32rtc)
    {r : Bool × TDateTime × Rtc} (h : getDatetime c dt = some r) : r.2.2 = c := by
  rcases hdev with hdev | hdev
  · rw [getDatetime_none hdev] at h
    obtain rfl := Option.some.inj h
    rfl
  · rw [getDatetime_stm32 hdev] at h
    obtain ⟨now, -, rfl⟩ := Option.map_eq_some_iff.mp h
    rfl

/-- And so does `get_zipdatetime`. -/
theorem getZipdatetime_kept (hdev : c.rtcDev = none ∨ c.rtcDev = some stm32rtc)
    {r : Bool × UInt32 × Rtc} (h : getZipdatetime c loc zdt = some r) : r.2.2 = c := by
  rw [Start01.getZipdatetime] at h
  obtain ⟨r', hr', rfl⟩ := Option.map_eq_some_iff.mp h
  have hkept := getDatetime_kept hdev hr'
  split <;> exact hkept

/-- A getter stores the date in its local variable, and returns what `datetime_mktime` leaves of
it. -/
theorem getField_stm32 (field : TDateTime → α) (hdev : c.rtcDev = some stm32rtc) :
    getField field c loc =
      (field (datetimeMktime loc).2, { c with counter := (datetimeMktime loc).1 }) := by
  simp only [getField, hdev]
  rfl

/-- So it is right only where that variable happens to stand for the date that the clock shows. -/
theorem reads_stm32_iff (field : TDateTime → α) (hdev : c.rtcDev = some stm32rtc) :
    Reads (getField field) field c loc ↔ (datetimeMktime loc).1 = c.counter ∧
      ∀ now, datetimeConvert c.counter = some now → field (datetimeMktime loc).2 = field now := by
  rw [Reads, getField_stm32 field hdev, getDatetime_stm32 hdev]
  obtain ⟨rtcDev, counter⟩ := c
  constructor
  · rintro ⟨hkept, hread⟩
    exact ⟨congrArg Rtc.counter hkept, fun now hnow => hread _ (by rw [hnow]; rfl) rfl⟩
  · rintro ⟨hkept, hread⟩
    refine ⟨congrArg (Rtc.mk rtcDev) hkept, fun r hr _ => ?_⟩
    obtain ⟨now, hnow, rfl⟩ := Option.map_eq_some_iff.mp hr
    exact hread now hnow

/-- Where there is no clock, a getter does nothing. -/
theorem reads_none (field : TDateTime → α) (hdev : c.rtcDev = none) :
    Reads (getField field) field c loc := by
  have hget : getField field c loc = (0, c) := by
    simp only [getField, hdev]
  refine ⟨by rw [hget], fun r hr htrue => ?_⟩
  rw [getDatetime_none hdev] at hr
  obtain rfl := Option.some.inj hr
  exact absurd htrue Bool.false_ne_true

/-- `datetime_mktime` moves the month. -/
theorem datetimeMktime_ne (dt : TDateTime) : (datetimeMktime dt).2 ≠ dt := by
  obtain ⟨hfeb, hlater⟩ := datetimeMktime_shift dt
  intro heq
  rw [heq] at hfeb hlater
  have hlt := dt.mon.toNat_lt
  by_cases h : dt.mon.toNat = 2
  · have htwelve := (hfeb h).2
    omega
  · have hless := (hlater h).2
    omega

/-- So `set_datetime` always changes the caller's date. -/
theorem setDatetime_ne (hdev : c.rtcDev = some stm32rtc) (dt : TDateTime) :
    (setDatetime c dt).2.1 ≠ dt := by
  have hset : (setDatetime c dt).2.1 = (datetimeMktime dt).2 := by
    simp only [Start01.setDatetime, hdev]
    rfl
  rw [hset]
  exact datetimeMktime_ne dt

/-- **The calls** do what they should in no state in which there is a clock. -/
theorem callsOk_iff (hdev : c.rtcDev = none ∨ c.rtcDev = some stm32rtc) (dt : TDateTime)
    (zdt : UInt32) (loc : TDateTime) : CallsOk c dt zdt loc ↔ c.rtcDev = none := by
  constructor
  · intro h
    exact hdev.resolve_right fun hstm => setDatetime_ne hstm dt h.setDatetime.1
  · intro hnone
    have hset : setDatetime c dt = (false, dt, c) := by
      simp only [Start01.setDatetime, hnone]
    have hzip : (setZipdatetime c loc zdt).2 = c := by
      simp only [Start01.setZipdatetime, Start01.setDatetime, hnone]
    exact {
      getDatetime := fun r hr => getDatetime_kept hdev hr
      getZipdatetime := fun r hr => getZipdatetime_kept hdev hr
      year := reads_none TDateTime.year hnone
      mon := reads_none TDateTime.mon hnone
      day := reads_none TDateTime.day hnone
      hour := reads_none TDateTime.hour hnone
      min := reads_none TDateTime.min hnone
      sec := reads_none TDateTime.sec hnone
      setDatetime := by rw [hset]; exact ⟨rfl, rfl⟩
      setZipdatetime := by rw [hzip] }

/-- With the clock of rtc_stm32.c. -/
theorem callsOk_iff_stm32 :
    CallsOk (Rtc.stm32 0) ⟨2012, 5, 10, 0, 10, 12, 12⟩ 0 ⟨0, 0, 0, 0, 0, 0, 0⟩ ↔
      (Rtc.stm32 0).rtcDev = none :=
  callsOk_iff (.inr rfl) ⟨2012, 5, 10, 0, 10, 12, 12⟩ 0 ⟨0, 0, 0, 0, 0, 0, 0⟩

/-- One second past midnight on the 2nd of January 2000, `get_year` sets the clock to what its
unwritten variable holds; and `set_datetime` makes the 10th of May the 10th of March. -/
theorem calls_not_ok :
    ¬ CallsOk (Rtc.stm32 86401) ⟨2012, 5, 10, 0, 10, 12, 12⟩ 0 ⟨0, 0, 0, 0, 0, 0, 0⟩ ∧
    (getYear (Rtc.stm32 86401) ⟨0, 0, 0, 0, 0, 0, 0⟩).2.counter ≠ 86401 ∧
    (setDatetime (Rtc.stm32 86401) ⟨2012, 5, 10, 0, 10, 12, 12⟩).2.1 =
      ⟨2012, 3, 10, 0, 10, 12, 12⟩ := by
  refine ⟨fun h => absurd h.setDatetime.1 (by decide), by decide, by decide⟩

/-! ### Dates in 32 bits -/

/-- A date that `valid_datetime` accepts is unpacked as it was packed. -/
theorem datetimeUnzip_datetimeZip {dt : TDateTime} (hv : validDatetime dt = true)
    (loc : TDateTime) : (datetimeUnzip (datetimeZip dt) loc).SameTime dt := by
  obtain ⟨hyear, hmon, hday, hhour, hmin, hsec⟩ := (validDatetime_iff dt).mp hv
  obtain ⟨hy, hm, hd, hh, hmi, hs⟩ := (datetimeZip_eq_iff (by omega) (datetimeZip dt)).mp rfl
  obtain ⟨hy', hm', hd', hh', hmi', hs'⟩ := datetimeUnzip_toNat (datetimeZip dt) loc
  refine ⟨UInt16.toNat_inj.mp ?_, UInt8.toNat_inj.mp ?_, UInt8.toNat_inj.mp ?_,
    UInt8.toNat_inj.mp ?_, UInt8.toNat_inj.mp ?_, UInt8.toNat_inj.mp ?_⟩
  · omega
  · omega
  · omega
  · omega
  · omega
  · omega

/-- **The packed form** loses nothing: no value of 32 bits, and no date that is valid. -/
theorem zip_unzip :
    (∀ (v : UInt32) (dt : TDateTime), datetimeZip (datetimeUnzip v dt) = v) ∧
      ∀ dt loc : TDateTime, validDatetime dt = true →
        (datetimeUnzip (datetimeZip dt) loc).SameTime dt :=
  ⟨datetimeZip_datetimeUnzip, fun _ loc hv => datetimeUnzip_datetimeZip hv loc⟩

/-- The last date of all, at hour 24 and minute 60. -/
theorem zip_unzip_last :
    datetimeZip (datetimeUnzip 0xFFFFFFFF ⟨0, 0, 0, 0, 0, 0, 0⟩) = 0xFFFFFFFF ∧
      (datetimeUnzip (datetimeZip ⟨2022, 12, 31, 6, 24, 60, 59⟩) ⟨0, 0, 0, 0, 0, 0, 0⟩).SameTime
        ⟨2022, 12, 31, 6, 24, 60, 59⟩ :=
  ⟨zip_unzip.1 0xFFFFFFFF ⟨0, 0, 0, 0, 0, 0, 0⟩,
    zip_unzip.2 ⟨2022, 12, 31, 6, 24, 60, 59⟩ ⟨0, 0, 0, 0, 0, 0, 0⟩ (by decide)⟩

end Start01
