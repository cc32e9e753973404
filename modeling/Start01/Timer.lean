/-
Start01/Timer.lean

The software timers of timer.c.  A registered device holds eight timers; the
interrupt handler calls `do_timer`, which counts every running timer down, and the
main loop calls `timer_srv`, which calls the functions of the timers that are due.

A function called this way may itself call `create_timer`, `timer_reset`,
`timer_start` and `timer_stop`.  What it calls is a parameter: any list of such
calls, chosen from its address, its two arguments and the state it finds.  A call
through NULL is a fault, and nothing runs behind it.

`long` and pointers have 32 bits; an `Addr` is the address of an object, and
`none` is NULL.  The state carries one ghost, the arguments of the `create_timer`
call a timer comes from.
-/
import Start01.ParamCfg
import Start01.Lib.Run

namespace Start01

open Run

/-! ### Timers and devices -/

/-- `MAX_TIMER_NUM`. -/
def maxTimerNum : ℕ := 8

/-- `ONE_TIME`. -/
def oneTime : UInt8 := 0

/-- `LOOP`. -/
def loop : UInt8 := 1

/-- `struct timer`. -/
structure Timer where
  tid : UInt8
  used : UInt8
  flag : UInt8
  suspend : UInt8
  reloadTimeoutUs : Int32
  timeoutUs : Int32
  fn : Option Addr
  privateArg : Option Addr

/-- `struct TimerDevice`, as far as the software timers use it. -/
structure TimerDevice where
  timerNum : UInt32
  periodUs : UInt32
  timerList : Fin maxTimerNum → Timer
  irqFlag : UInt32

/-- A `TID`: the pointer to a timer of a device. -/
structure TID where
  dev : Addr
  id : Fin maxTimerNum
deriving DecidableEq

/-- `sizeof(struct TimerDevice)`, `sizeof(timer)`, and where `cfg.timer_list` is. -/
def sizeofTimerDevice : ℕ := 280

/-- `sizeof(timer)`. -/
def sizeofTimer : ℕ := 24

/-- Where `cfg.timer_list` is in a device. -/
def offsetTimerList : ℕ := 76

/-- `dev->cfg.timer_list + id`. -/
def TID.addr (t : TID) : Addr := t.dev + offsetTimerList + sizeofTimer * t.id

def maxTimerCnt : ℕ := 4

/-- The array `timer_dev_list`: where it is, and the devices registered; two objects
do not overlap. -/
structure TimerDevList where
  base : Addr
  devs : List Addr
  length_le : devs.length ≤ maxTimerCnt
  apart : ∀ d ∈ devs, d + sizeofTimerDevice ≤ base ∨ base + 4 * maxTimerCnt ≤ d

/-- Ghost: the arguments of a `create_timer` call. -/
structure Created where
  timerCb : Option Addr
  arg : Option Addr
  flag : UInt8

/-- All devices, with the ghost. -/
structure TimerState where
  dev : Addr → TimerDevice
  made : TID → Option Created

/-- The timer of a TID. -/
def TimerState.timer (s : TimerState) (t : TID) : Timer := (s.dev t.dev).timerList t.id

/-- A device is changed. -/
def TimerState.setDev (s : TimerState) (d : Addr) (v : TimerDevice) : TimerState :=
  { s with dev := Function.update s.dev d v }

/-- Write a timer through its pointer. -/
def TimerState.setTimer (s : TimerState) (t : TID) (v : Timer) : TimerState :=
  let dev := s.dev t.dev
  s.setDev t.dev { dev with timerList := Function.update dev.timerList t.id v }

@[simp] theorem TimerState.made_setTimer (s : TimerState) (t : TID) (v : Timer) :
    (s.setTimer t v).made = s.made := rfl

theorem TimerState.timer_setDev (s : TimerState) (d : Addr) (v : TimerDevice) (u : TID) :
    (s.setDev d v).timer u = if u.dev = d then v.timerList u.id else s.timer u := by
  by_cases h : u.dev = d
  · subst h; simp [timer, setDev]
  · simp [timer, setDev, h]

/-- A device may be rewritten around its timers. -/
theorem TimerState.timer_setDev_of_timerList {s : TimerState} {d : Addr} {v : TimerDevice}
    (h : v.timerList = (s.dev d).timerList) (u : TID) : (s.setDev d v).timer u = s.timer u := by
  rw [timer_setDev, h]
  split
  · rename_i hu
    rw [← hu]
    rfl
  · rfl

theorem TimerState.timer_setTimer (s : TimerState) (t u : TID) (v : Timer) :
    (s.setTimer t v).timer u = if u = t then v else s.timer u := by
  obtain ⟨d, i⟩ := t
  obtain ⟨e, j⟩ := u
  simp only [setTimer, timer_setDev, TID.mk.injEq]
  by_cases he : e = d
  · subst he
    by_cases hj : j = i
    · subst hj; simp
    · simp [hj, timer]
  · simp [he]

/-! ### The functions of timer.c -/

/-- `timer_var_init`; `suspend` is not written. -/
def timerVarInit (t : Timer) : Timer :=
  { t with
    used := 0
    flag := oneTime
    fn := none
    reloadTimeoutUs := 0
    timeoutUs := 0
    tid := 0
    privateArg := none }

/-- `timer_init_cfg`; `timer_num` is not written. -/
def timerInitCfg (dev : TimerDevice) (periodUs : UInt32) : TimerDevice :=
  { dev with
    periodUs := periodUs
    timerList := fun i => timerVarInit (dev.timerList i) }

/-- The devices of the data segment after `timer_init_cfg`. -/
def TimerState.reset (periodUs : UInt32) : TimerState where
  dev _ := timerInitCfg ⟨0, 0, fun _ => ⟨0, 0, 0, 0, 0, 0, none, none⟩, 0⟩ periodUs
  made _ := none

/-- `get_free_timer_id`. -/
def getFreeTimerId (dev : TimerDevice) : Option (Fin maxTimerNum) :=
  (List.finRange maxTimerNum).find? fun i => (dev.timerList i).used == 0

/-- What `create_timer` writes into the free timer. -/
def newTimer (id : Fin maxTimerNum) (timeoutUs : UInt32) (timerCb arg : Option Addr)
    (flag : UInt8) : Timer where
  flag := flag
  fn := timerCb
  reloadTimeoutUs := timeoutUs.toInt32
  timeoutUs := timeoutUs.toInt32
  tid := UInt8.ofNat id
  privateArg := arg
  suspend := 1
  used := 1

/-- `create_timer`.  The outer `none` is the end of the function without a `return`. -/
def createTimer (s : TimerState) (dev : Option Addr) (timeoutUs : UInt32)
    (timerCb arg : Option Addr) (flag : UInt8) : Option (Option TID) × TimerState :=
  match dev with
  | none => (none, s)
  | some d =>
    if (s.dev d).timerNum.toNat < maxTimerNum then
      match getFreeTimerId (s.dev d) with
      | none => (some none, s)
      | some id =>
        let s₁ := s.setTimer ⟨d, id⟩ (newTimer id timeoutUs timerCb arg flag)
        let s₂ := s₁.setDev d { s₁.dev d with timerNum := (s₁.dev d).timerNum + 1 }
        (some (some ⟨d, id⟩), { s₂ with
          made := Function.update s₂.made ⟨d, id⟩ (some ⟨timerCb, arg, flag⟩) })
    else (none, s)

/-- **`create_timer`** either changes nothing, or fills one timer. -/
theorem createTimer_cases (s : TimerState) (dev : Option Addr) (timeoutUs : UInt32)
    (timerCb arg : Option Addr) (flag : UInt8) :
    ((createTimer s dev timeoutUs timerCb arg flag).1.join = none ∧
      (createTimer s dev timeoutUs timerCb arg flag).2 = s) ∨
    ∃ t, (createTimer s dev timeoutUs timerCb arg flag).1 = some (some t) ∧ dev = some t.dev ∧
      (s.timer t).used = 0 ∧
      (∀ u, (createTimer s dev timeoutUs timerCb arg flag).2.timer u
        = if u = t then newTimer t.id timeoutUs timerCb arg flag else s.timer u) ∧
      (createTimer s dev timeoutUs timerCb arg flag).2.made
        = Function.update s.made t (some ⟨timerCb, arg, flag⟩) := by
  unfold createTimer
  split
  · exact .inl ⟨rfl, rfl⟩
  · rename_i d
    split
    · split
      · exact .inl ⟨rfl, rfl⟩
      · rename_i id hid
        -- the count in `timer_num` changes no timer
        refine .inr ⟨⟨d, id⟩, rfl, rfl, ?_, fun u => ?_, rfl⟩
        · simpa [TimerState.timer] using List.find?_some hid
        · let s₁ := s.setTimer ⟨d, id⟩ (newTimer id timeoutUs timerCb arg flag)
          show (s₁.setDev d { s₁.dev d with timerNum := (s₁.dev d).timerNum + 1 }).timer u = _
          refine Eq.trans (TimerState.timer_setDev_of_timerList ?_ u) (s.timer_setTimer ⟨d, id⟩ u _)
          rfl
    · exact .inl ⟨rfl, rfl⟩

/-- `timer_reset`. -/
def timerReset (s : TimerState) (timer : Option TID) : Bool × TimerState :=
  match timer with
  | none => (false, s)
  | some t =>
    (true, if (s.timer t).flag = loop then
        s.setTimer t { s.timer t with timeoutUs := (s.timer t).reloadTimeoutUs }
      else s)

/-- `timer_start` and `timer_stop`, up to the call into the hardware driver: the
value written to `suspend`. -/
def setSuspend (s : TimerState) (dev : Option Addr) (timer : Option TID) (v : UInt8) : TimerState :=
  match timer, dev with
  | some t, some _ => s.setTimer t { s.timer t with suspend := v }
  | _, _ => s

/-- `timer_start`, without the driver of the hardware. -/
def timerStart (s : TimerState) (dev : Option Addr) (timer : Option TID) : TimerState :=
  setSuspend s dev timer 0

/-- `timer_stop`, without the driver of the hardware. -/
def timerStop (s : TimerState) (dev : Option Addr) (timer : Option TID) : TimerState :=
  setSuspend s dev timer 1

/-- One pass of the loop of `do_timer`, on one timer. -/
def Timer.count (t : Timer) (period : UInt32) : Timer :=
  if t.used ≠ 0 ∧ t.timeoutUs > 0 then { t with timeoutUs := t.timeoutUs - period.toInt32 } else t

/-- `do_timer`. -/
def doTimer (s : TimerState) (d : Addr) : TimerState :=
  let dev := s.dev d
  s.setDev d { dev with
    timerList := fun i => (dev.timerList i).count dev.periodUs
    irqFlag := 1 }

/-! ### What a called function may call -/

/-- The calls of the timers. -/
inductive ApiCall
  | createTimer (dev : Option Addr) (timeoutUs : UInt32) (timerCb arg : Option Addr) (flag : UInt8)
  | timerReset (timer : Option TID)
  | timerStart (dev : Option Addr) (timer : Option TID)
  | timerStop (dev : Option Addr) (timer : Option TID)

def apiCall (s : TimerState) : ApiCall → TimerState
  | .createTimer dev timeoutUs timerCb arg flag => (createTimer s dev timeoutUs timerCb arg flag).2
  | .timerReset timer => (timerReset s timer).2
  | .timerStart dev timer => timerStart s dev timer
  | .timerStop dev timer => timerStop s dev timer

/-- The calls the function at an address makes, from its arguments and the state. -/
abbrev TimeOutProc := Addr → Addr → Option Addr → TimerState → List ApiCall

/-! ### timer_srv -/

/-- A call `fn(tid, arg)`. -/
structure TimerCall where
  fn : Option Addr
  tid : Addr
  arg : Option Addr
deriving DecidableEq

/-- A timer served: as it was tested, as it was when the call was made, and the call. -/
structure Service where
  timer : TID
  made : Option Created
  tested : Timer
  left : Timer
  call : TimerCall

/-- `timer[j].used && timer[j].timeout_us <= 0`, with a function to call. -/
def Timer.Due (t : Timer) : Prop := t.used ≠ 0 ∧ t.timeoutUs ≤ 0 ∧ t.fn ≠ none

instance (t : Timer) : Decidable t.Due :=
  inferInstanceAs (Decidable (t.used ≠ 0 ∧ t.timeoutUs ≤ 0 ∧ t.fn ≠ none))

/-- What is done to a timer that is due, before the call. -/
def Timer.rearm (t : Timer) : Timer :=
  if t.flag = oneTime then timerVarInit t
  else if t.flag = loop then { t with timeoutUs := t.reloadTimeoutUs }
  else t

/-- Where a piece of `timer_srv` gets to, and the timers it serves; `none` is the fault. -/
abbrev SrvResult := Option TimerState × List Service

/-- Go on unless there was a fault. -/
def SrvResult.andThen (r : SrvResult) (k : TimerState → SrvResult) : SrvResult :=
  match r.1 with
  | none => r
  | some s => ((k s).1, r.2 ++ (k s).2)

variable (L : TimerDevList) (proc : TimeOutProc)

/-- The body of the inner loop, on timer `j` of device `d`. -/
def srvTimer (d : Addr) (j : Fin maxTimerNum) (s : TimerState) : SrvResult :=
  let t := s.timer ⟨d, j⟩
  if t.Due then
    let s₁ := s.setTimer ⟨d, j⟩ t.rearm
    let t₁ := s₁.timer ⟨d, j⟩
    let call : TimerCall := ⟨t₁.fn, L.base + 4 * j, t₁.privateArg⟩
    (match call.fn with
      | none => none
      | some f => some ((proc f call.tid call.arg s₁).foldl apiCall s₁),
      [⟨⟨d, j⟩, s.made ⟨d, j⟩, t, t₁, call⟩])
  else (some s, [])

/-- The inner loop. -/
def srvTimers (d : Addr) : List (Fin maxTimerNum) → TimerState → SrvResult
  | [], s => (some s, [])
  | j :: js, s => (srvTimer L proc d j s).andThen (srvTimers d js)

/-- `irq_flag = 0`. -/
def clearIrq (d : Addr) (s : TimerState) : TimerState :=
  s.setDev d { s.dev d with irqFlag := 0 }

@[simp] theorem timer_clearIrq (d : Addr) (s : TimerState) (u : TID) :
    (clearIrq d s).timer u = s.timer u :=
  TimerState.timer_setDev_of_timerList (by rfl) u

/-- The body of the outer loop. -/
def srvDevice (d : Addr) (s : TimerState) : SrvResult :=
  let r := if (s.dev d).irqFlag ≠ 0 ∧ (s.dev d).timerNum > 0 then
      srvTimers L proc d (List.finRange maxTimerNum) s
    else (some s, [])
  r.andThen fun s => (some (clearIrq d s), [])

/-- The outer loop. -/
def srvDevices : List Addr → TimerState → SrvResult
  | [], s => (some s, [])
  | d :: ds, s => (srvDevice L proc d s).andThen (srvDevices ds)

/-- `timer_srv`. -/
def timerSrv (s : TimerState) : SrvResult := srvDevices L proc L.devs s

/-! ### Runs -/

/-- The steps of a run whose passes of `timer_srv` are whole. -/
inductive TimerOp
  | api (c : ApiCall)
  | doTimer (dev : Addr)
  | timerSrv

/-- One step of the program; behind a fault nothing happens. -/
def timerStep : Option TimerState → TimerOp → Option (Option TimerState × List Service)
  | none, _ => some (none, [])
  | some s, .api c => some (some (apiCall s c), [])
  | some s, .doTimer dev => some (some (Start01.doTimer s dev), [])
  | some s, .timerSrv => some (Start01.timerSrv L proc s)

end Start01
