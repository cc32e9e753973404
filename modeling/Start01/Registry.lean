/-
Start01/Registry.lean

The three registries of devices: led.c, the timer devices of timer.c and the serial devices of
serial.c.  Each is an array of pointers that is filled from the front, with a counter.  They test
for room, for NULL and for the number 0 each in its own way:

* `led_register` asks for `_led_num > MAX_LED_NUM`, so that a ninth device is taken;
* `request_timer` does not ask for 0;
* `usart_register` does not ask for NULL.

An array is a map from all indices, what lies around it included, and every function is given
with the accesses it makes.  `Registered` is the invariant: the array holds the devices accepted
so far, in order.  `registryRight_iff` says which calls keep it.
-/
import Start01.Lib.Run
import Start01.SerialOpen
import Start01.Timer

namespace Start01

open Run

namespace Registry

/-! ### The arrays -/

/-- An array of pointers to devices, and its counter.  Around the array lies other memory. -/
structure DevList where
  slots : ℤ → Option Addr
  num : ℕ

/-- `list[num++] = dev;` -/
def DevList.push (r : DevList) (dev : Option Addr) : DevList where
  slots := Function.update r.slots r.num dev
  num := r.num + 1

/-- An access: to an element of the array, or through a pointer to a device. -/
inductive Access
  | slot (i : ℤ)
  | deref (dev : Option Addr)
deriving DecidableEq

/-- The access is to one of the elements, or to a device. -/
def Access.Inside (capacity : ℕ) : Access → Prop
  | slot i => 0 ≤ i ∧ i < capacity
  | deref dev => dev ≠ none

/-- The three kinds of devices. -/
inductive Kind
  | led
  | timer
  | serial
deriving DecidableEq

/-- `MAX_LED_NUM`. -/
def maxLedNum : ℕ := 8

/-- `MAX_SERIAL_NUM`. -/
def maxSerialNum : ℕ := 5

/-- The places in the array of a kind. -/
def Kind.capacity : Kind → ℕ
  | led => maxLedNum
  | timer => maxTimerCnt
  | serial => maxSerialNum

/-- The statics of the three files, and the serial devices. -/
structure Registries where
  led : DevList
  timer : DevList
  serial : DevList
  dev : Addr → TSerialDevice

/-- The registry of a kind. -/
def Registries.list (s : Registries) : Kind → DevList
  | .led => s.led
  | .timer => s.timer
  | .serial => s.serial

/-! ### Registrations -/

/-- What a registration returns, the accesses it makes, and what it leaves. -/
structure Registration where
  ok : Bool
  accesses : List Access
  after : Registries

/-- `led_register(dev)`. -/
def ledRegister (s : Registries) (dev : Option Addr) : Registration :=
  if dev ≠ none then
    if s.led.num > maxLedNum then ⟨false, [], s⟩
    else ⟨true, [.slot s.led.num], { s with led := s.led.push dev }⟩
  else ⟨false, [], s⟩

/-- `register_timer_device(dev)`. -/
def registerTimerDevice (s : Registries) (dev : Option Addr) : Registration :=
  if s.timer.num ≥ maxTimerCnt then ⟨false, [], s⟩
  else if dev ≠ none then ⟨true, [.slot s.timer.num], { s with timer := s.timer.push dev }⟩
  else ⟨false, [], s⟩

/-- `dev->tx_fifo = NULL;` and the three other assignments; those through NULL are left out. -/
def usartReset (devs : Addr → TSerialDevice) : Option Addr → Addr → TSerialDevice
  | none => devs
  | some d => Function.update devs d (Start01.usartRegister (devs d))

/-- `usart_register(dev)`. -/
def usartRegister (s : Registries) (dev : Option Addr) : Registration :=
  if s.serial.num ≥ maxSerialNum then ⟨false, [], s⟩
  else
    ⟨true, [.deref dev, .slot s.serial.num],
      { s with serial := s.serial.push dev, dev := usartReset s.dev dev }⟩

/-! ### Lookups -/

/-- `led_find(num)`. -/
def ledFind (s : Registries) (num : UInt8) : Option Addr × List Access :=
  if num.toNat > s.led.num ∨ num = 0 then (none, [])
  else
    let num := num - 1
    (s.led.slots num.toNat, [.slot num.toNat])

/-- `request_timer(num)`. -/
def requestTimer (s : Registries) (num : UInt8) : Option Addr × List Access :=
  if num.toNat > s.timer.num then (none, [])
  else
    let i : ℤ := num.toNat - 1
    (s.timer.slots i, [.slot i])

/-- `strcmp(s, t) == 0`. -/
def strcmpEq (s t : List UInt8) : Bool := s.takeWhile (· ≠ 0) == t.takeWhile (· ≠ 0)

section Name

-- what is at `dev->name`
variable (name : Option Addr → List UInt8)

/-- The loop of `usart_get_device`, with `n` devices left from `i` on. -/
def getDeviceLoop (r : DevList) (ttyname : List UInt8) : ℕ → ℕ → Option Addr × List Access
  | 0, _ => (none, [])
  | n + 1, i =>
      let dev := r.slots i
      if strcmpEq ttyname (name dev) then (dev, [.slot i, .deref dev])
      else
        let rest := getDeviceLoop r ttyname n (i + 1)
        (rest.1, .slot i :: .deref dev :: rest.2)

/-- `usart_get_device(ttyname)`. -/
def usartGetDevice (s : Registries) (ttyname : List UInt8) : Option Addr × List Access :=
  getDeviceLoop name s.serial ttyname s.serial.num 0

/-- `usart_request(ttyname)`. -/
def usartRequest (s : Registries) (ttyname : List UInt8) : Option Addr × List Access :=
  usartGetDevice name s ttyname

/-! ### Calls -/

/-- The calls of the registries. -/
inductive RegistryOp
  | ledRegister (dev : Option Addr)
  | ledFind (num : UInt8)
  | registerTimerDevice (dev : Option Addr)
  | requestTimer (num : UInt8)
  | usartRegister (dev : Option Addr)
  | usartRequest (ttyname : List UInt8)

/-- What was called, and what it returned. -/
inductive Answer
  | registered (dev : Option Addr) (ok : Bool)
  | found (num : UInt8) (dev : Option Addr)
  | named (ttyname : List UInt8) (dev : Option Addr)

/-- The registries, with the devices each has accepted. -/
structure RegistryState where
  regs : Registries
  /-- Ghost: in the order of their registration. -/
  accepted : Kind → List Addr

/-- A call, with the devices accepted before it. -/
structure RegistryCall where
  kind : Kind
  answer : Answer
  accesses : List Access
  accepted : List Addr
  before : Registries
  after : Registries

/-- A registration.  A device for which TRUE is returned is accepted. -/
def RegistryState.register (s : RegistryState) (kind : Kind) (dev : Option Addr)
    (r : Registration) : RegistryState × List RegistryCall :=
  (⟨r.after, if r.ok then Function.update s.accepted kind (s.accepted kind ++ dev.toList)
      else s.accepted⟩,
    [⟨kind, .registered dev r.ok, r.accesses, s.accepted kind, s.regs, r.after⟩])

/-- A lookup. -/
def RegistryState.lookup (s : RegistryState) (kind : Kind) (answer : Option Addr → Answer)
    (r : Option Addr × List Access) : RegistryState × List RegistryCall :=
  (s, [⟨kind, answer r.1, r.2, s.accepted kind, s.regs, s.regs⟩])

/-- A call as a step. -/
def registryStep (s : RegistryState) : RegistryOp → RegistryState × List RegistryCall
  | .ledRegister dev => s.register .led dev (ledRegister s.regs dev)
  | .ledFind num => s.lookup .led (.found num) (ledFind s.regs num)
  | .registerTimerDevice dev => s.register .timer dev (registerTimerDevice s.regs dev)
  | .requestTimer num => s.lookup .timer (.found num) (requestTimer s.regs num)
  | .usartRegister dev => s.register .serial dev (usartRegister s.regs dev)
  | .usartRequest ttyname => s.lookup .serial (.named ttyname) (usartRequest name s.regs ttyname)

/-- Nothing is registered; the arrays and what lies around them are arbitrary. -/
def RegistryState.reset (slots : Kind → ℤ → Option Addr) (dev : Addr → TSerialDevice) :
    RegistryState where
  regs := ⟨⟨slots .led, 0⟩, ⟨slots .timer, 0⟩, ⟨slots .serial, 0⟩, dev⟩
  accepted _ := []

/-! ### What is asked -/

/-- The `num`-th device accepted, counted from one. -/
def nthAccepted (accepted : List Addr) (num : UInt8) : Option Addr :=
  if num = 0 then none else accepted[num.toNat - 1]?

/-- All is well with a call. -/
structure RegistryCall.Right (e : RegistryCall) : Prop where
  inside : ∀ a ∈ e.accesses, a.Inside e.kind.capacity
  count : (e.after.list e.kind).num ≤ e.kind.capacity
  number : ∀ num dev, e.answer = .found num dev → dev = nthAccepted e.accepted num
  known : ∀ ttyname dev, e.answer = .named ttyname dev →
    ∀ d ∈ e.accepted, strcmpEq ttyname (name (some d)) = true → dev = some d
  unknown : ∀ ttyname dev, e.answer = .named ttyname dev →
    (∀ d ∈ e.accepted, strcmpEq ttyname (name (some d)) = false) → dev = none
  refused : ∀ dev ok, e.answer = .registered dev ok → e.kind.capacity ≤ e.accepted.length →
    ok = false ∧ e.after = e.before

/-- The call is not one of those that go wrong: a device for the LEDs when eight are held, the
timer device 0, a serial device NULL while there is room, a name that two serial devices have. -/
def RegistryCall.Allowed (e : RegistryCall) : Prop :=
  match e.kind, e.answer with
  | .led, .registered dev _ => dev = none ∨ e.accepted.length < maxLedNum
  | .timer, .found num _ => num ≠ 0
  | .serial, .registered dev _ => dev ≠ none ∨ maxSerialNum ≤ e.accepted.length
  | .serial, .named ttyname _ => ∀ d ∈ e.accepted, ∀ d' ∈ e.accepted,
      strcmpEq ttyname (name (some d)) = true → strcmpEq ttyname (name (some d')) = true → d = d'
  | _, _ => True

/-! ### The invariant -/

/-- The array holds the devices accepted, in order, and they fit. -/
structure Holds (capacity : ℕ) (r : DevList) (accepted : List Addr) : Prop where
  num : r.num = accepted.length
  le : accepted.length ≤ capacity
  slot : ∀ (i : ℕ) (d : Addr), accepted[i]? = some d → r.slots i = some d

/-- Every registry holds what it has accepted. -/
def Registered (s : RegistryState) : Prop :=
  ∀ kind, Holds kind.capacity (s.regs.list kind) (s.accepted kind)

theorem registered_reset (slots : Kind → ℤ → Option Addr) (dev : Addr → TSerialDevice) :
    Registered (.reset slots dev) := by
  intro kind
  cases kind <;> exact ⟨rfl, Nat.zero_le _, fun i d h => by cases h⟩

section Holds

variable {capacity : ℕ} {r : DevList} {accepted : List Addr}

/-- One more device, where there is room for it. -/
theorem Holds.push (h : Holds capacity r accepted) (hlt : accepted.length < capacity) (d : Addr) :
    Holds capacity (r.push (some d)) (accepted ++ [d]) := by
  refine ⟨?_, ?_, fun i e hi => ?_⟩
  · rw [List.length_append, ← h.num]
    rfl
  · rw [List.length_append]
    exact hlt
  · show Function.update r.slots r.num (some d) i = some e
    rw [h.num]
    rcases Nat.lt_trichotomy i accepted.length with hlt' | rfl | hgt
    · rw [List.getElem?_append_left hlt'] at hi
      rw [Function.update_of_ne (by omega)]
      exact h.slot i e hi
    · rw [List.getElem?_append_right le_rfl, Nat.sub_self] at hi
      rw [Function.update_self, ← hi]
      rfl
    · rw [List.getElem?_eq_none (by rw [List.length_append]; exact hgt)] at hi
      cases hi

/-- The element of a number that is not 0 and not too large, and the device accepted under it. -/
theorem Holds.nth (h : Holds capacity r accepted) {num : UInt8} (h0 : num ≠ 0)
    (hle : num.toNat ≤ r.num) :
    r.slots ((num.toNat : ℤ) - 1) = nthAccepted accepted num ∧
      Access.Inside capacity (.slot ((num.toNat : ℤ) - 1)) := by
  have hpos : 0 < num.toNat := Nat.pos_of_ne_zero fun hz => h0 (UInt8.toNat_inj.mp hz)
  have hnum := h.num
  have hcap := h.le
  have hlt : num.toNat - 1 < accepted.length := by omega
  have hi : (num.toNat : ℤ) - 1 = ((num.toNat - 1 : ℕ) : ℤ) := by omega
  have hget := List.getElem?_eq_getElem hlt
  rw [nthAccepted, if_neg h0, hget, hi]
  exact ⟨h.slot _ _ hget, ⟨by omega, by omega⟩⟩

/-- … and no device under the others. -/
theorem Holds.nth_none (h : Holds capacity r accepted) {num : UInt8}
    (hout : num.toNat > r.num ∨ num = 0) : nthAccepted accepted num = none := by
  rcases hout with hgt | rfl
  · have hnum := h.num
    have h0 : num ≠ 0 := by
      rintro rfl
      exact absurd hgt (Nat.not_lt_zero _)
    rw [nthAccepted, if_neg h0, List.getElem?_eq_none (by omega)]
  · rfl

/-- The loop finds the first device of the name. -/
theorem Holds.getDevice (h : Holds capacity r accepted) (ttyname : List UInt8) (n : ℕ) :
    ∀ i, i + n = r.num →
      (getDeviceLoop name r ttyname n i).1 =
          (accepted.drop i).find? (fun d => strcmpEq ttyname (name (some d))) ∧
        ∀ a ∈ (getDeviceLoop name r ttyname n i).2, a.Inside capacity := by
  have hnum := h.num
  have hcap := h.le
  induction n with
  | zero =>
    intro i hi
    rw [List.drop_eq_nil_of_le (by omega)]
    exact ⟨rfl, fun a ha => by cases ha⟩
  | succ n ih =>
    intro i hi
    have hlt : i < accepted.length := by omega
    have hslot := h.slot i _ (List.getElem?_eq_getElem hlt)
    have hin : ∀ a ∈ [Access.slot i, .deref (r.slots i)], a.Inside capacity := by
      rw [hslot, List.forall_mem_cons, List.forall_mem_singleton]
      exact ⟨⟨by omega, by omega⟩, Option.some_ne_none _⟩
    obtain ⟨hrest, hrest'⟩ := ih (i + 1) (by omega)
    rw [List.drop_eq_getElem_cons hlt, List.find?_cons, getDeviceLoop, hslot]
    cases hname : strcmpEq ttyname (name (some accepted[i])) with
    | true => exact ⟨rfl, by rw [← hslot]; exact hin⟩
    | false =>
      refine ⟨hrest, ?_⟩
      show ∀ a ∈ [Access.slot i, .deref (some accepted[i])] ++ _, a.Inside capacity
      rw [← hslot, List.forall_mem_append]
      exact ⟨hin, hrest'⟩

end Holds

/-! ### Lookups -/

variable {name} {s : RegistryState}

theorem ledFind_spec (h : Registered s) (num : UInt8) :
    (ledFind s.regs num).1 = nthAccepted (s.accepted .led) num ∧
      ∀ a ∈ (ledFind s.regs num).2, a.Inside maxLedNum := by
  have hled := h .led
  unfold ledFind
  split_ifs with hout
  · exact ⟨(hled.nth_none hout).symm, fun a ha => by cases ha⟩
  · obtain ⟨hle, h0⟩ := not_or.mp hout
    have hpos : num.toNat ≠ 0 := fun hz => h0 (UInt8.toNat_inj.mp hz)
    have hpred : ((num - 1).toNat : ℤ) = (num.toNat : ℤ) - 1 := by
      have hlt := num.toNat_lt
      have hone : (1 : UInt8).toNat = 1 := rfl
      rw [UInt8.toNat_sub, hone]
      omega
    obtain ⟨hget, hin⟩ := hled.nth h0 (not_lt.mp hle)
    simp only [hpred, List.forall_mem_singleton]
    exact ⟨hget, hin⟩

/-- The number 0 aside. -/
theorem requestTimer_spec (h : Registered s) {num : UInt8} (h0 : num ≠ 0) :
    (requestTimer s.regs num).1 = nthAccepted (s.accepted .timer) num ∧
      ∀ a ∈ (requestTimer s.regs num).2, a.Inside maxTimerCnt := by
  have htimer := h .timer
  unfold requestTimer
  split_ifs with hout
  · exact ⟨(htimer.nth_none (.inl hout)).symm, fun a ha => by cases ha⟩
  · obtain ⟨hget, hin⟩ := htimer.nth h0 (not_lt.mp hout)
    exact ⟨hget, List.forall_mem_singleton.mpr hin⟩

/-- The number 0 is the element before the first. -/
theorem requestTimer_zero (r : Registries) :
    requestTimer r 0 = (r.timer.slots (-1), [.slot (-1)]) := rfl

variable (name) in
theorem usartRequest_spec (h : Registered s) (ttyname : List UInt8) :
    (usartRequest name s.regs ttyname).1 =
        (s.accepted .serial).find? (fun d => strcmpEq ttyname (name (some d))) ∧
      ∀ a ∈ (usartRequest name s.regs ttyname).2, a.Inside maxSerialNum :=
  (h .serial).getDevice name ttyname _ 0 (Nat.zero_add _)

/-- A lookup by number is as it is to be iff its answer is, and its accesses are inside. -/
theorem right_found (h : Registered s) (kind : Kind) (num : UInt8)
    (r : Option Addr × List Access) :
    (∀ e ∈ (s.lookup kind (.found num) r).2, e.Right name) ↔
      r.1 = nthAccepted (s.accepted kind) num ∧ ∀ a ∈ r.2, a.Inside kind.capacity := by
  have hnum := (h kind).num.le.trans (h kind).le
  refine List.forall_mem_singleton.trans ⟨fun hr => ⟨hr.number _ _ rfl, hr.inside⟩, fun hr => ?_⟩
  refine ⟨hr.2, hnum, fun _ _ heq => ?_, nofun, nofun, nofun⟩
  obtain ⟨rfl, rfl⟩ := Answer.found.inj heq
  exact hr.1

/-- A lookup by name answers the first device of that name. -/
theorem right_named (h : Registered s) (ttyname : List UInt8) :
    (∀ e ∈ (s.lookup .serial (.named ttyname) (usartRequest name s.regs ttyname)).2,
        e.Right name) ↔
      ∀ d ∈ s.accepted .serial, ∀ d' ∈ s.accepted .serial, strcmpEq ttyname (name (some d)) = true →
        strcmpEq ttyname (name (some d')) = true → d = d' := by
  obtain ⟨hfind, hin⟩ := usartRequest_spec name h ttyname
  have hnum := (h .serial).num.le.trans (h .serial).le
  refine List.forall_mem_singleton.trans ⟨fun hr d hd d' hd' hn hn' => ?_, fun hone => ?_⟩
  · have heq := (hr.known _ _ rfl d hd hn).symm.trans (hr.known _ _ rfl d' hd' hn')
    exact Option.some.inj heq
  · refine ⟨hin, hnum, nofun, fun _ _ heq d hd hn => ?_, fun _ _ heq hnone => ?_, nofun⟩
    · obtain ⟨rfl, rfl⟩ := Answer.named.inj heq
      rw [hfind]
      cases hres : (s.accepted .serial).find? fun d => strcmpEq ttyname (name (some d)) with
      | none => exact absurd hn (List.find?_eq_none.mp hres d hd)
      | some d' =>
        have hn' := List.find?_some hres
        exact congrArg some (hone d' (List.mem_of_find?_eq_some hres) d hd hn' hn)
    · obtain ⟨rfl, rfl⟩ := Answer.named.inj heq
      rw [hfind, List.find?_eq_none]
      exact fun d hd => Bool.eq_false_iff.mp (hnone d hd)

/-! ### Registrations -/

/-- A call that is refused, as it is to be when there is no room. -/
theorem verdict_refused (h : Registered s) {kind : Kind} {dev : Option Addr}
    (hallowed : ∀ e ∈ (s.register kind dev ⟨false, [], s.regs⟩).2, e.Allowed name) :
    Verdict Registered (RegistryCall.Right name) (RegistryCall.Allowed name)
      (s.register kind dev ⟨false, [], s.regs⟩).1 (s.register kind dev ⟨false, [], s.regs⟩).2 := by
  have hnum := (h kind).num.le.trans (h kind).le
  refine ⟨iff_of_true (List.forall_mem_singleton.mpr ?_) hallowed, fun _ => h⟩
  refine ⟨fun _ ha => absurd ha List.not_mem_nil, hnum, nofun, nofun, nofun, fun _ _ heq _ => ?_⟩
  obtain ⟨-, rfl⟩ := Answer.registered.inj heq
  exact ⟨rfl, rfl⟩

/-- A device that is accepted while there is room. -/
theorem verdict_accepted (h : Registered s) {kind : Kind} {d : Addr} {r : Registration}
    (hok : r.ok = true) (hlt : (s.accepted kind).length < kind.capacity)
    (hin : ∀ a ∈ r.accesses, a.Inside kind.capacity)
    (hlist : r.after.list kind = (s.regs.list kind).push (some d))
    (hother : ∀ k, k ≠ kind → r.after.list k = s.regs.list k)
    (hallowed : ∀ e ∈ (s.register kind (some d) r).2, e.Allowed name) :
    Verdict Registered (RegistryCall.Right name) (RegistryCall.Allowed name)
      (s.register kind (some d) r).1 (s.register kind (some d) r).2 := by
  have hpush := (h kind).push hlt d
  rw [← hlist] at hpush
  refine ⟨iff_of_true (List.forall_mem_singleton.mpr ?_) hallowed, fun _ k => ?_⟩
  · refine ⟨hin, hpush.num.le.trans hpush.le, nofun, nofun, nofun, fun _ _ _ hfull => ?_⟩
    exact absurd hfull (not_le.mpr hlt)
  · show Holds k.capacity (r.after.list k) ((if r.ok = true then _ else _ : Kind → List Addr) k)
    rw [if_pos hok]
    by_cases hk : k = kind
    · subst hk
      rw [Function.update_self]
      exact hpush
    · rw [Function.update_of_ne hk, hother k hk]
      exact h k

/-- A call that makes an access outside. -/
theorem verdict_outside {kind : Kind} {dev : Option Addr} {r : Registration} {a : Access}
    (ha : a ∈ r.accesses) (hout : ¬ a.Inside kind.capacity)
    (hallowed : ¬ ∀ e ∈ (s.register kind dev r).2, e.Allowed name) :
    Verdict Registered (RegistryCall.Right name) (RegistryCall.Allowed name)
      (s.register kind dev r).1 (s.register kind dev r).2 := by
  have hwrong : ¬ ∀ e ∈ (s.register kind dev r).2, e.Right name :=
    fun hr => hout ((hr _ (List.mem_singleton_self _)).inside a ha)
  exact ⟨iff_of_false hwrong hallowed, fun hr => absurd hr hwrong⟩

/-- The element behind the last device, while there is room. -/
theorem inside_slot {capacity n : ℕ} (h : n < capacity) : Access.Inside capacity (.slot n) :=
  ⟨Int.natCast_nonneg n, Int.ofNat_lt.mpr h⟩

/-- The element behind the last. -/
theorem not_inside_capacity (capacity : ℕ) : ¬ Access.Inside capacity (.slot capacity) :=
  fun hin => lt_irrefl _ hin.2

theorem ledRegister_verdict (h : Registered s) (dev : Option Addr) :
    Verdict Registered (RegistryCall.Right name) (RegistryCall.Allowed name)
      (registryStep name s (.ledRegister dev)).1 (registryStep name s (.ledRegister dev)).2 := by
  have hled := h .led
  show Verdict _ _ _ (s.register .led dev (ledRegister s.regs dev)).1
    (s.register .led dev (ledRegister s.regs dev)).2
  cases dev with
  | none => exact verdict_refused h (List.forall_mem_singleton.mpr (.inl rfl))
  | some d =>
    -- the counter never gets past the capacity while all is well, so the test never fails
    have hnum : ¬ s.regs.led.num > maxLedNum := not_lt.mpr (hled.num.le.trans hled.le)
    have hreg : ledRegister s.regs (some d) =
        ⟨true, [.slot s.regs.led.num], { s.regs with led := s.regs.led.push (some d) }⟩ := by
      rw [ledRegister, if_pos (Option.some_ne_none d), if_neg hnum]
    rw [hreg]
    have hlen : s.regs.led.num = (s.accepted .led).length := hled.num
    rcases hled.le.lt_or_eq with hlt | heq
    · refine verdict_accepted h rfl hlt
        (List.forall_mem_singleton.mpr (inside_slot (hlen ▸ hlt))) rfl (fun k hk => ?_)
        (List.forall_mem_singleton.mpr (.inr hlt))
      cases k <;> first | exact absurd rfl hk | rfl
    · refine verdict_outside (List.mem_singleton_self _) ?_ fun hall => ?_
      · rw [hlen, heq]
        exact not_inside_capacity _
      · rcases List.forall_mem_singleton.mp hall with hnone | hlt
        · cases hnone
        · exact absurd hlt (not_lt.mpr heq.ge)

theorem registerTimerDevice_verdict (h : Registered s) (dev : Option Addr) :
    Verdict Registered (RegistryCall.Right name) (RegistryCall.Allowed name)
      (registryStep name s (.registerTimerDevice dev)).1
      (registryStep name s (.registerTimerDevice dev)).2 := by
  have htimer := h .timer
  have hlen : s.regs.timer.num = (s.accepted .timer).length := htimer.num
  have hallowed : ∀ r, ∀ e ∈ (s.register .timer dev r).2, e.Allowed name :=
    fun _ => List.forall_mem_singleton.mpr trivial
  show Verdict _ _ _ (s.register .timer dev (registerTimerDevice s.regs dev)).1
    (s.register .timer dev (registerTimerDevice s.regs dev)).2
  unfold registerTimerDevice
  split_ifs with hfull hdev
  · exact verdict_refused h (hallowed _)
  · obtain ⟨d, rfl⟩ := Option.ne_none_iff_exists'.mp hdev
    have hlt : (s.accepted .timer).length < maxTimerCnt := hlen ▸ not_le.mp hfull
    refine verdict_accepted h rfl hlt
      (List.forall_mem_singleton.mpr (inside_slot (hlen ▸ hlt))) rfl (fun k hk => ?_) (hallowed _)
    cases k <;> first | exact absurd rfl hk | rfl
  · exact verdict_refused h (hallowed _)

theorem usartRegister_verdict (h : Registered s) (dev : Option Addr) :
    Verdict Registered (RegistryCall.Right name) (RegistryCall.Allowed name)
      (registryStep name s (.usartRegister dev)).1 (registryStep name s (.usartRegister dev)).2 := by
  have hserial := h .serial
  have hlen : s.regs.serial.num = (s.accepted .serial).length := hserial.num
  show Verdict _ _ _ (s.register .serial dev (usartRegister s.regs dev)).1
    (s.register .serial dev (usartRegister s.regs dev)).2
  unfold usartRegister
  split_ifs with hfull
  · exact verdict_refused h (List.forall_mem_singleton.mpr (.inr (hlen ▸ hfull)))
  · have hlt : (s.accepted .serial).length < maxSerialNum := hlen ▸ not_le.mp hfull
    cases dev with
    | none =>
      refine verdict_outside (a := .deref none) List.mem_cons_self (fun hin => hin rfl) fun hall => ?_
      rcases List.forall_mem_singleton.mp hall with hne | hge
      · exact hne rfl
      · exact absurd hge (not_le.mpr hlt)
    | some d =>
      refine verdict_accepted h rfl hlt ?_ rfl (fun k hk => ?_)
        (List.forall_mem_singleton.mpr (.inl (Option.some_ne_none d)))
      · refine List.forall_mem_cons.mpr ⟨Option.some_ne_none d, List.forall_mem_singleton.mpr ?_⟩
        exact inside_slot (hlen ▸ hlt)
      · cases k <;> first | exact absurd rfl hk | rfl

/-! ### All calls -/

variable (name) in
/-- **Step.**  A call is as it is to be iff it is not one of those that go wrong. -/
theorem registryStep_verdict (h : Registered s) (op : RegistryOp) :
    Verdict Registered (RegistryCall.Right name) (RegistryCall.Allowed name)
      (registryStep name s op).1 (registryStep name s op).2 := by
  cases op with
  | ledRegister dev => exact ledRegister_verdict h dev
  | ledFind num =>
    refine ⟨iff_of_true ?_ (List.forall_mem_singleton.mpr trivial), fun _ => h⟩
    exact (right_found h .led num _).mpr (ledFind_spec h num)
  | registerTimerDevice dev => exact registerTimerDevice_verdict h dev
  | requestTimer num =>
    refine ⟨(right_found h .timer num _).trans (Iff.trans ?_ List.forall_mem_singleton.symm),
      fun _ => h⟩
    by_cases h0 : num = 0
    · subst h0
      rw [requestTimer_zero]
      refine iff_of_false (fun hr => ?_) fun hne => hne rfl
      exact absurd (List.forall_mem_singleton.mp hr.2).1 (by decide)
    · exact iff_of_true (requestTimer_spec h h0) h0
  | usartRegister dev => exact usartRegister_verdict h dev
  | usartRequest ttyname =>
    refine ⟨(right_named h ttyname).trans (Iff.trans ?_ List.forall_mem_singleton.symm),
      fun _ => h⟩
    exact Iff.rfl

/-- Where the devices lie apart from the array, which is at `base`, registration gives the list
that `timer_srv` goes over. -/
theorem Registered.timerDevList (h : Registered s) (base : Addr)
    (apart : ∀ d ∈ s.accepted .timer, d + sizeofTimerDevice ≤ base ∨ base + 4 * maxTimerCnt ≤ d) :
    ∃ L : TimerDevList, L.base = base ∧ L.devs.length = s.regs.timer.num ∧
      ∀ (i : ℕ) (d : Addr), L.devs[i]? = some d → s.regs.timer.slots i = some d :=
  ⟨⟨base, s.accepted .timer, (h .timer).le, apart⟩, rfl, (h .timer).num.symm, (h .timer).slot⟩

variable (name) in
/-- **The registries.**  For every sequence of registrations and lookups: all is well with the
calls iff none of them is one of those that go wrong. -/
theorem registryRight_iff (slots : Kind → ℤ → Option Addr) (dev : Addr → TSerialDevice)
    (ops : List RegistryOp) :
    (∀ e ∈ (trace (registryStep name) (.reset slots dev) ops).2, e.Right name) ↔
      ∀ e ∈ (trace (registryStep name) (.reset slots dev) ops).2, e.Allowed name :=
  (trace_verdict (fun _ op hs => registryStep_verdict name hs op) ops
    (registered_reset slots dev)).1

/-- Nine LEDs: the ninth is written behind the array, and counted.  And the timer device 0 is read
from before it. -/
theorem registryRight_not :
    let name : Option Addr → List UInt8 := fun _ => []
    let start : RegistryState := .reset (fun _ _ => none) fun _ => ⟨0, 0, 0, 0, 0⟩
    let leds := trace (registryStep name) start (List.replicate 9 (.ledRegister (some 0)))
    let timer := trace (registryStep name) start [.requestTimer 0]
    (¬ ∀ e ∈ leds.2, e.Right name) ∧ leds.1.regs.led.num = 9 ∧
      (∃ e ∈ leds.2, .slot 8 ∈ e.accesses) ∧
      (¬ ∀ e ∈ timer.2, e.Right name) ∧ ∃ e ∈ timer.2, .slot (-1) ∈ e.accesses := by
  intro name start leds timer
  have hleds : ∃ e ∈ leds.2, e.kind = .led ∧ .slot 8 ∈ e.accesses :=
    ⟨_, List.mem_of_getElem? (i := 8) rfl, rfl, List.mem_singleton_self _⟩
  have htimer : ∃ e ∈ timer.2, .slot (-1) ∈ e.accesses :=
    ⟨_, List.mem_singleton_self _, List.mem_singleton_self _⟩
  obtain ⟨e, he, hkind, ha⟩ := hleds
  refine ⟨fun hr => ?_, rfl, ⟨e, he, ha⟩, fun hr => ?_, htimer⟩
  · have hin := (hr e he).inside _ ha
    rw [hkind] at hin
    exact absurd hin.2 (by decide)
  · obtain ⟨e, he, ha⟩ := htimer
    exact absurd ((hr e he).inside _ ha).1 (by decide)

end Name

end Registry

end Start01
