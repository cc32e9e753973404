/-
Start01/DateTime.lean

datetime.c and the clock of rtc_stm32.c.  The counter counts the seconds from
2000-01-01 00:00:00; `datetime_convert` splits a count by tables,
`datetime_mktime` counts a date by a closed form, and a `TZipDateTime` holds a
date in 32 bits.

A table read outside the table, at index `i - 2` for `i = 1`, is `none`.  The
`s32` variables of `datetime_convert` are natural numbers: they stay below
`SecsPerFourYear`, and what is subtracted is a bound the loop has just passed.
Callers pass the addresses of their own objects, so the tests for NULL are left
out.  A `TDateTime` a caller has not initialised is a parameter.
-/
import Mathlib.Tactic

namespace Start01

/-! ### Dates -/

/-- `TDateTime`. -/
structure TDateTime where
  year : UInt16
  mon : UInt8
  day : UInt8
  week : UInt8
  hour : UInt8
  min : UInt8
  sec : UInt8
deriving DecidableEq

/-- `START_YEAR`. -/
def startYear : ℕ := 2000

/-- `SecsPerFourYear`, three years and a leap year. -/
def secsPerFourYear : ℕ := 126230400

/-- `SecsPerDay`. -/
def secsPerDay : ℕ := 86400

/-- `Year_Secs_Accu`. -/
def yearSecsAccu : List ℕ := [0, 31622400, 63158400, 94694400, 126230400]

/-- `Month_Secs_Accu_C`, of a common year. -/
def monthSecsAccuC : List ℕ :=
  [0, 2678400, 5097600, 7776000, 10368000, 13046400, 15638400, 18316800, 20995200, 23587200,
    26265600, 28857600, 31536000]

/-- `Month_Secs_Accu_L`, of a leap year. -/
def monthSecsAccuL : List ℕ :=
  [0, 2678400, 5184000, 7862400, 10454400, 13132800, 15724800, 18403200, 21081600, 23673600,
    26352000, 28944000, 31622400]

/-- `mdays`. -/
def mdays : List ℕ := [0, 31, 28, 31, 30, 31, 30, 31, 31, 30, 31, 30]

/-- `Ymd2Wday`; the loop reads `mdays[0]` to `mdays[month - 1]`. -/
def ymd2Wday (year month days : ℕ) : Option ℕ :=
  if month ≤ mdays.length then
    let y := year - 1
    let days := days + (mdays.take month).sum
    let days :=
      if month > 2 ∧ (year % 400 = 0 ∨ year &&& 3 = 0 ∧ year % 100 ≠ 0) then days + 1 else days
    some ((y + y / 4 - y / 100 + y / 400 + days) % 7)
  else none

/-- `while (x > tbl[i++]);` from the head of `tbl`: how often the test succeeds. -/
def whileAbove (x : ℕ) (tbl : List ℕ) : Option ℕ := tbl.findIdx? fun b => x ≤ b

/-- `datetime_convert`. -/
def datetimeConvert (timeVar : UInt32) : Option TDateTime := do
  let num4Y := timeVar.toNat / secsPerFourYear
  let offSec := timeVar.toNat % secsPerFourYear
  -- the loop starts at `i = 1`, and `i - 2` is then `off4Y`
  let off4Y ← whileAbove offSec (yearSecsAccu.drop 1)
  let numY := num4Y * 4 + off4Y
  let year := UInt16.ofNat (startYear + numY)
  let offSec := offSec - (← yearSecsAccu[off4Y]?)
  let monthSecsAccu := if year.toNat % 4 ≠ 0 then monthSecsAccuC else monthSecsAccuL
  -- the loop starts at `i = 0`; `mon` is `i - 1`, and the bound passed is at `i - 2`
  let mon ← whileAbove offSec monthSecsAccu
  let passed ← if mon = 0 then none else monthSecsAccu[mon - 1]?
  let offSec := offSec - passed
  let numDay := offSec / secsPerDay
  let offSec := offSec % secsPerDay
  let week ← ymd2Wday year.toNat mon (UInt8.ofNat (numDay + 1)).toNat
  return {
    year := year
    mon := UInt8.ofNat mon
    day := UInt8.ofNat (numDay + 1)
    week := UInt8.ofNat week
    hour := UInt8.ofNat (offSec / 3600)
    min := UInt8.ofNat (offSec % 3600 / 60)
    sec := UInt8.ofNat (offSec % 3600 % 60) }

/-- `datetime_mktime`, with what it leaves in `*dt`. -/
def datetimeMktime (dt : TDateTime) : UInt32 × TDateTime :=
  let dt := { dt with mon := dt.mon - 2 }
  -- `0 >= (int)(dt->mon -= 2)`: the value of an unsigned char
  let dt := if 0 ≥ dt.mon.toNat then { dt with mon := dt.mon + 12, year := dt.year - 1 } else dt
  let year := dt.year.toNat
  let days := year / 4 - year / 100 + year / 400 + 367 * dt.mon.toNat / 12 + dt.day.toNat
  ((((UInt32.ofNat days + UInt32.ofNat (year * 365) - 730456) * 24
    + dt.hour.toUInt32) * 60 + dt.min.toUInt32) * 60 + dt.sec.toUInt32, dt)

/-- `valid_datetime`. -/
def validDatetime (dt : TDateTime) : Bool :=
  if dt.year < 2012 ∨ dt.year > 2022 then false
  else if dt.mon < 1 ∨ dt.mon > 12 then false
  else if dt.day > 31 then false
  else if dt.hour > 24 then false
  else if dt.min > 60 then false
  else if dt.sec > 59 then false
  else true

/-! ### Dates in 32 bits -/

/-- The bit-fields, from the least significant one. -/
structure TZipDateTime where
  sec : BitVec 6
  min : BitVec 6
  hour : BitVec 5
  day : BitVec 5
  mon : BitVec 4
  year : BitVec 6

/-- The member `value` of the union. -/
def TZipDateTime.value (z : TZipDateTime) : UInt32 :=
  UInt32.ofNat (z.sec.toNat + 2 ^ 6 * (z.min.toNat + 2 ^ 6 * (z.hour.toNat + 2 ^ 5 *
    (z.day.toNat + 2 ^ 5 * (z.mon.toNat + 2 ^ 4 * z.year.toNat)))))

/-- The member `dt` of the union. -/
def TZipDateTime.ofValue (value : UInt32) : TZipDateTime where
  sec := BitVec.ofNat 6 value.toNat
  min := BitVec.ofNat 6 (value.toNat / 2 ^ 6)
  hour := BitVec.ofNat 5 (value.toNat / 2 ^ 12)
  day := BitVec.ofNat 5 (value.toNat / 2 ^ 17)
  mon := BitVec.ofNat 4 (value.toNat / 2 ^ 22)
  year := BitVec.ofNat 6 (value.toNat / 2 ^ 26)

/-- `datetime_unzip`; `week` is not written. -/
def datetimeUnzip (zipValue : UInt32) (dt : TDateTime) : TDateTime :=
  let zdt := TZipDateTime.ofValue zipValue
  { dt with
    year := UInt16.ofNat (zdt.year.toNat + 2000)
    mon := UInt8.ofNat zdt.mon.toNat
    day := UInt8.ofNat zdt.day.toNat
    hour := UInt8.ofNat zdt.hour.toNat
    min := UInt8.ofNat zdt.min.toNat
    sec := UInt8.ofNat zdt.sec.toNat }

/-- `datetime_zip`; the masks are as wide as the fields. -/
def datetimeZip (inDt : TDateTime) : UInt32 :=
  TZipDateTime.value {
    year := BitVec.ofInt 6 (inDt.year.toNat - 2000)
    mon := BitVec.ofNat 4 inDt.mon.toNat
    day := BitVec.ofNat 5 inDt.day.toNat
    hour := BitVec.ofNat 5 inDt.hour.toNat
    min := BitVec.ofNat 6 inDt.min.toNat
    sec := BitVec.ofNat 6 inDt.sec.toNat }

theorem TZipDateTime.value_toNat (z : TZipDateTime) :
    z.value.toNat = z.sec.toNat + 2 ^ 6 * (z.min.toNat + 2 ^ 6 * (z.hour.toNat + 2 ^ 5 *
      (z.day.toNat + 2 ^ 5 * (z.mon.toNat + 2 ^ 4 * z.year.toNat)))) := by
  have hsec := z.sec.isLt
  have hmin := z.min.isLt
  have hhour := z.hour.isLt
  have hday := z.day.isLt
  have hmon := z.mon.isLt
  have hyear := z.year.isLt
  apply UInt32.toNat_ofNat_of_lt'
  show _ < 2 ^ 32
  omega

/-- The fields `datetime_unzip` writes. -/
theorem datetimeUnzip_toNat (v : UInt32) (dt : TDateTime) :
    (datetimeUnzip v dt).year.toNat = 2000 + v.toNat / 2 ^ 26 ∧
    (datetimeUnzip v dt).mon.toNat = v.toNat / 2 ^ 22 % 16 ∧
    (datetimeUnzip v dt).day.toNat = v.toNat / 2 ^ 17 % 32 ∧
    (datetimeUnzip v dt).hour.toNat = v.toNat / 2 ^ 12 % 32 ∧
    (datetimeUnzip v dt).min.toNat = v.toNat / 2 ^ 6 % 64 ∧
    (datetimeUnzip v dt).sec.toNat = v.toNat % 64 := by
  have hv := v.toNat_lt
  refine ⟨?_, ?_, ?_, ?_, ?_, ?_⟩ <;> simp [datetimeUnzip, TZipDateTime.ofValue] <;> omega

/-- A date is packed into `v` if and only if the fields of `v` are those of the date,
each cut to its width. -/
theorem datetimeZip_eq_iff {dt : TDateTime} (hy : 2000 ≤ dt.year.toNat) (v : UInt32) :
    datetimeZip dt = v ↔
      (dt.year.toNat - 2000) % 64 = v.toNat / 2 ^ 26 ∧ dt.mon.toNat % 16 = v.toNat / 2 ^ 22 % 16 ∧
      dt.day.toNat % 32 = v.toNat / 2 ^ 17 % 32 ∧ dt.hour.toNat % 32 = v.toNat / 2 ^ 12 % 32 ∧
      dt.min.toNat % 64 = v.toNat / 2 ^ 6 % 64 ∧ dt.sec.toNat % 64 = v.toNat % 64 := by
  have hv := v.toNat_lt
  have hyear : (BitVec.ofInt 6 ((dt.year.toNat : ℤ) - 2000)).toNat = (dt.year.toNat - 2000) % 64 := by
    rw [BitVec.toNat_ofInt]
    omega
  rw [← UInt32.toNat_inj, datetimeZip, TZipDateTime.value_toNat, hyear]
  simp only [BitVec.toNat_ofNat]
  omega

/-- Unpacking and packing again. -/
theorem datetimeZip_datetimeUnzip (v : UInt32) (dt : TDateTime) :
    datetimeZip (datetimeUnzip v dt) = v := by
  have hv := v.toNat_lt
  obtain ⟨hy, hm, hd, hh, hmi, hs⟩ := datetimeUnzip_toNat v dt
  rw [datetimeZip_eq_iff (by omega), hy, hm, hd, hh, hmi, hs]
  omega

/-! ### The clock -/

/-- The two functions of an `RTC_Device`, over the counter: what they return, and
what they leave in `*dt` and in the counter. -/
structure RTCDevice where
  getDatetime : TDateTime → UInt32 → Option (Bool × TDateTime × UInt32)
  setDatetime : TDateTime → UInt32 → Bool × TDateTime × UInt32

/-- `stm32_get_datetime`. -/
def stm32GetDatetime (_dt : TDateTime) (counter : UInt32) : Option (Bool × TDateTime × UInt32) :=
  (datetimeConvert counter).map fun dt => (true, dt, counter)

/-- `stm32_set_datetime`. -/
def stm32SetDatetime (dt : TDateTime) (_counter : UInt32) : Bool × TDateTime × UInt32 :=
  (true, (datetimeMktime dt).2, (datetimeMktime dt).1)

/-- What `stm32_rtc_init` registers. -/
def stm32rtc : RTCDevice := ⟨stm32GetDatetime, stm32SetDatetime⟩

/-- `rtc_dev`, and the hardware counter. -/
structure Rtc where
  rtcDev : Option RTCDevice
  counter : UInt32

/-- `register_rtc`. -/
def registerRtc (c : Rtc) (dev : Option RTCDevice) : Bool × Rtc :=
  (dev.isSome, { c with rtcDev := dev })

/-- After `stm32_rtc_init`. -/
def Rtc.stm32 (counter : UInt32) : Rtc := (registerRtc ⟨none, counter⟩ (some stm32rtc)).2

/-- `get_datetime`. -/
def getDatetime (c : Rtc) (dt : TDateTime) : Option (Bool × TDateTime × Rtc) :=
  match c.rtcDev with
  | some dev => (dev.getDatetime dt c.counter).map fun r => (r.1, r.2.1, { c with counter := r.2.2 })
  | none => some (false, dt, c)

/-- `set_datetime`. -/
def setDatetime (c : Rtc) (dt : TDateTime) : Bool × TDateTime × Rtc :=
  match c.rtcDev with
  | some dev =>
      let r := dev.setDatetime dt c.counter
      (r.1, r.2.1, { c with counter := r.2.2 })
  | none => (false, dt, c)

/-- `get_zipdatetime`; `dt` is the local variable. -/
def getZipdatetime (c : Rtc) (dt : TDateTime) (zdt : UInt32) : Option (Bool × UInt32 × Rtc) :=
  (getDatetime c dt).map fun r =>
    if r.1 then (true, datetimeZip r.2.1, r.2.2) else (false, zdt, r.2.2)

/-- `set_zipdatetime`; `dt` is the local variable. -/
def setZipdatetime (c : Rtc) (dt : TDateTime) (zdt : UInt32) : Bool × Rtc :=
  let r := setDatetime c (datetimeUnzip zdt dt)
  (r.1, r.2.2)

/-- What the six getters share; `dt` is the local variable, and they call `set_datetime` of the
device with it. -/
def getField {α : Type} [OfNat α 0] (field : TDateTime → α) (c : Rtc) (dt : TDateTime) : α × Rtc :=
  match c.rtcDev with
  | some dev =>
      let r := dev.setDatetime dt c.counter
      (if r.1 then field r.2.1 else 0, { c with counter := r.2.2 })
  | none => (0, c)

/-- `get_year`. -/
def getYear : Rtc → TDateTime → UInt16 × Rtc := getField TDateTime.year

/-- `get_mon`. -/
def getMon : Rtc → TDateTime → UInt8 × Rtc := getField TDateTime.mon

/-- `get_day`. -/
def getDay : Rtc → TDateTime → UInt8 × Rtc := getField TDateTime.day

/-- `get_hour`. -/
def getHour : Rtc → TDateTime → UInt8 × Rtc := getField TDateTime.hour

/-- `get_min`. -/
def getMin : Rtc → TDateTime → UInt8 × Rtc := getField TDateTime.min

/-- `get_sec`. -/
def getSec : Rtc → TDateTime → UInt8 × Rtc := getField TDateTime.sec

end Start01
