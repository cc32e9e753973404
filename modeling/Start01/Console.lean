/-
Start01/Console.lean

The console of serial.c.  What is written before a device is registered goes to a FIFO of 256
bytes, in which the newest characters push out the oldest; `register_console` then drains the
FIFO to the device through `console_putc` itself, which by now writes to the device.

`usart_sendbyte` asserts that the device is open.  The project is built with
`USE_FULL_ASSERT`, and `assert_failed` reports through `printf`, that is through `fputc`, that
is through `console_putc`: with a device that is not open the report of the assertion asserts
again, and no call returns (`consolePutc_not_open`).  With one that is open, each character
arrives (`console_delivers`).
-/
import Mathlib.Data.List.DropRight
import Start01.SerialOpen

namespace Start01

open Run

/-! ### serial.c, error.c and printf_init.c -/

/-- `MAX_CONSOLE_BUF_SIZE`. -/
def maxConsoleBufSize : UInt32 := 256

/-- The console and the port behind it. -/
structure Console where
  /-- `console_dev`, which may be NULL. -/
  dev : Option TSerialDevice
  /-- `console_fifo`: NULL, or `g_console_fifo`. -/
  fifo : Option Kfifo
  /-- `console_buffer`, as it is when it becomes that of the FIFO. -/
  buffer : ℕ → UInt8
  /-- The characters that the device's `sendbyte` has been called with. -/
  sent : List UInt8

/-- The variables as they are at the start. -/
def Console.boot (buffer : ℕ → UInt8) : Console := ⟨none, none, buffer, []⟩

/-- `console_alloc_kfifo`. -/
def consoleAllocKfifo (s : Console) : Console :=
  match s.fifo with
  | none => { s with fifo := some (kfifoInitStatic s.buffer maxConsoleBufSize) }
  | some _ => s

/-- The text that `assert_failed` prints for the assertion in `usart_sendbyte`. -/
def assertReport : List UInt8 :=
  "assert failed : file ..\\Bsp\\Src\\serial.c line 124\r\n".toList.map Char.toUInt8

section Assert

-- the `console_putc` that `fputc` calls
variable (putc : Console → UInt8 → Option Console)

/-- `fputc`. -/
def fputc (s : Console) (ch : UInt8) : Option Console := do
  let s ← if ch = 0x0A then putc s 0x0D else some s
  putc s ch

/-- `assert_failed`. -/
def assertFailed (s : Console) : Option Console := assertReport.foldlM (fputc putc) s

/-- `usart_sendbyte`. -/
def usartSendbyte (s : Console) (dev : TSerialDevice) (ch : UInt8) : Option Console := do
  let s ← if dev.openFlag ≠ 0 then some s else assertFailed putc s
  return { s with sent := s.sent ++ [ch] }

end Assert

/-- `console_putc`; one that is nested deeper than the fuel does not return. -/
def consolePutc : ℕ → Console → UInt8 → Option Console
  | 0 => fun _ _ => none
  | fuel + 1 => fun s ch =>
    match s.dev with
    | some dev => usartSendbyte (consolePutc fuel) s dev ch
    | none =>
      let s := consoleAllocKfifo s
      match s.fifo with
      | some fifo => (kfifoPutc fifo ch).map fun fifo => { s with fifo := some fifo }
      | none => some s

/-- `console_putstring`, up to the NUL behind the text or in it. -/
def consolePutstring (fuel : ℕ) : Console → List UInt8 → Option Console
  | s, [] => some s
  | s, c :: text =>
    if c = 0 then some s else (consolePutc fuel s c).bind fun s => consolePutstring fuel s text

/-- `while (0 == kfifo_getc(console_fifo, &ch)) { console_putc(ch); }`; `n` bounds the rounds. -/
def consoleDrain (fuel : ℕ) : ℕ → Console → Option Console
  | 0, _ => none
  | n + 1, s =>
    match s.fifo with
    | none => some s
    | some fifo => do
      let (c, fifo) ← kfifoGetc fifo
      let s := { s with fifo := some fifo }
      match c with
      | none => return s
      | some ch => consoleDrain fuel n (← consolePutc fuel s ch)

/-- `register_console`. -/
def registerConsole (fuel : ℕ) (s : Console) (dev : Option TSerialDevice) : Option Console :=
  let s := { s with dev := dev }
  if s.fifo.isSome ∧ s.dev.isSome then consoleDrain fuel fuel s else some s

/-! ### Runs -/

/-- The calls of the console. -/
inductive ConsoleCall
  | putc (ch : UInt8)
  | putstring (text : List UInt8)
  | serialInit

/-- A call; `serial_init` is the `coredevice_initcall`. -/
def consoleStep (fuel : ℕ) (s : Console) : ConsoleCall → Option Console
  | .putc ch => consolePutc fuel s ch
  | .putstring text => consolePutstring fuel s text
  | .serialInit => some (consoleAllocKfifo s)

/-- The characters that a call writes. -/
def ConsoleCall.written : ConsoleCall → List UInt8
  | .putc ch => [ch]
  | .putstring text => text.takeWhile (· ≠ 0)
  | .serialInit => []

/-- Calls before, and after, one `register_console`. -/
def consoleRun (fuel : ℕ) (buffer : ℕ → UInt8) (before : List ConsoleCall) (dev : TSerialDevice)
    (after : List ConsoleCall) : Option Console := do
  let s ← exec (consoleStep fuel) (.boot buffer) before
  let s ← registerConsole fuel s (some dev)
  exec (consoleStep fuel) s after

/-- The calls return, and the device has been sent the last 256 of the characters written before it
was registered, or all of them if they are no more, and then all that were written after. -/
def Delivers (buffer : ℕ → UInt8) (before : List ConsoleCall) (dev : TSerialDevice)
    (after : List ConsoleCall) : Prop :=
  ∃ fuel s, consoleRun fuel buffer before dev after = some s ∧
    s.sent = (before.flatMap ConsoleCall.written).rtake 256 ++ after.flatMap ConsoleCall.written

/-! ### What writing does -/

/-- What is kept, with the characters written so far, by each of the two things that the calls are
made of. -/
structure Records (fuel : ℕ) (P : Console → List UInt8 → Prop) : Prop where
  putc : ∀ {s w} (ch : UInt8), P s w → ∃ s', consolePutc fuel s ch = some s' ∧ P s' (w ++ [ch])
  alloc : ∀ {s w}, P s w → P (consoleAllocKfifo s) w

namespace Records

variable {fuel : ℕ} {P : Console → List UInt8 → Prop} {s : Console} {w : List UInt8}

theorem putstring (h : Records fuel P) (text : List UInt8) : ∀ {s w}, P s w →
    ∃ s', consolePutstring fuel s text = some s' ∧ P s' (w ++ text.takeWhile (· ≠ 0)) := by
  induction text with
  | nil => exact fun {s w} hs => ⟨s, rfl, by simpa using hs⟩
  | cons c text ih =>
    intro s w hs
    rw [consolePutstring]
    by_cases hc : c = 0
    · rw [if_pos hc]
      exact ⟨s, rfl, by simpa [hc] using hs⟩
    · obtain ⟨s₁, heq, hs₁⟩ := h.putc c hs
      obtain ⟨s', heq', hs'⟩ := ih hs₁
      rw [if_neg hc, heq, Option.bind_some]
      exact ⟨s', heq', by simpa [hc] using hs'⟩

/-- **Step.** -/
theorem step (h : Records fuel P) (hs : P s w) (call : ConsoleCall) :
    ∃ s', consoleStep fuel s call = some s' ∧ P s' (w ++ call.written) := by
  cases call with
  | putc ch => exact h.putc ch hs
  | putstring text => exact h.putstring text hs
  | serialInit =>
    refine ⟨_, rfl, ?_⟩
    rw [ConsoleCall.written, List.append_nil]
    exact h.alloc hs

/-- **Run.** -/
theorem run (h : Records fuel P) (calls : List ConsoleCall) : ∀ {s w}, P s w →
    ∃ s', exec (consoleStep fuel) s calls = some s' ∧
      P s' (w ++ calls.flatMap ConsoleCall.written) := by
  induction calls with
  | nil => exact fun {s w} hs => ⟨s, rfl, by simpa using hs⟩
  | cons call calls ih =>
    intro s w hs
    obtain ⟨s₁, heq, hs₁⟩ := h.step hs call
    obtain ⟨s', heq', hs'⟩ := ih hs₁
    rw [List.append_assoc] at hs'
    exact ⟨s', exec_cons_eq_some.mpr ⟨s₁, heq, heq'⟩, hs'⟩

end Records

/-! ### Before a device is registered -/

/-- One element more pushes out the first of the last `n`, if they are `n`. -/
theorem rtake_concat {α : Type*} {n : ℕ} (hn : 0 < n) (l : List α) (a : α) :
    (l ++ [a]).rtake n =
      (if (l.rtake n).length = n then (l.rtake n).drop 1 else l.rtake n) ++ [a] := by
  obtain ⟨n, rfl⟩ := Nat.exists_eq_add_one.mpr hn
  rw [List.rtake_concat_succ]
  congr 1
  simp only [List.rtake, List.length_drop, List.drop_drop]
  split
  · congr 1
    omega
  · congr 1
    omega

namespace Console

/-- The FIFO, once there is one, has the last 256 characters written. -/
structure Keeps (s : Console) (w : List UInt8) : Prop where
  dev : s.dev = none
  sent : s.sent = []
  unset : s.fifo = none → w = []
  queue : ∀ fifo, s.fifo = some fifo →
    fifo.Valid ∧ fifo.size = maxConsoleBufSize ∧ fifo.queue = w.rtake 256

variable {s : Console} {w : List UInt8} {fuel : ℕ}

theorem keeps_boot (buffer : ℕ → UInt8) : (boot buffer).Keeps [] where
  dev := rfl
  sent := rfl
  unset := fun _ => rfl
  queue := fun _ h => by cases h

/-- `console_alloc_kfifo` sets up an empty FIFO, unless there is one. -/
theorem Keeps.alloc (h : s.Keeps w) :
    (consoleAllocKfifo s).Keeps w ∧ ∃ fifo, (consoleAllocKfifo s).fifo = some fifo := by
  rcases hfifo : s.fifo with - | fifo
  · obtain ⟨hv, hq⟩ := @kfifoInitStatic_valid s.buffer maxConsoleBufSize ⟨8, by decide, rfl⟩
    rw [consoleAllocKfifo, hfifo]
    refine ⟨⟨h.dev, h.sent, (fun hno => by cases hno), ?_⟩, _, rfl⟩
    rintro fifo ⟨⟩
    refine ⟨hv, rfl, ?_⟩
    rw [hq, h.unset hfifo, List.rtake_nil]
  · rw [consoleAllocKfifo, hfifo]
    exact ⟨h, fifo, hfifo⟩

theorem Keeps.putc (h : s.Keeps w) (ch : UInt8) :
    ∃ s', consolePutc (fuel + 1) s ch = some s' ∧ s'.Keeps (w ++ [ch]) := by
  obtain ⟨h₁, fifo, hfifo⟩ := h.alloc
  obtain ⟨hv, hsize, hq⟩ := h₁.queue fifo hfifo
  obtain ⟨fifo', hput, hv', hsize', hq'⟩ := hv.putc ch
  refine ⟨{ consoleAllocKfifo s with fifo := some fifo' }, ?_,
    ⟨h₁.dev, h₁.sent, (fun hno => by cases hno), ?_⟩⟩
  · simp only [consolePutc, h.dev, hfifo, hput, Option.map_some]
  · rintro fifo ⟨⟩
    refine ⟨hv', hsize'.trans hsize, ?_⟩
    rw [hq', ← Kfifo.queue_length, hsize, hq]
    exact (rtake_concat (by decide) w ch).symm

theorem records_keeps (fuel : ℕ) : Records (fuel + 1) Keeps where
  putc := fun ch h => h.putc ch
  alloc := fun h => h.alloc.1

end Console

/-! ### A device that is open -/

namespace Console

variable {s : Console} {w : List UInt8} {dev : TSerialDevice} {fifo : Kfifo}

/-- The device is the console, and has been sent what was written. -/
structure Feeds (dev : TSerialDevice) (s : Console) (w : List UInt8) : Prop where
  dev : s.dev = some dev
  sent : s.sent = w

theorem Feeds.putc (h : s.Feeds dev w) (hopen : dev.openFlag ≠ 0) (fuel : ℕ) (ch : UInt8) :
    consolePutc (fuel + 1) s ch = some { s with sent := w ++ [ch] } := by
  obtain ⟨hdev, rfl⟩ := h
  have hsend : usartSendbyte (consolePutc fuel) s dev ch =
      some { s with sent := s.sent ++ [ch] } := by
    rw [usartSendbyte, if_pos hopen]
    rfl
  rw [← hsend]
  simp only [consolePutc, hdev]

theorem records_feeds (hopen : dev.openFlag ≠ 0) (fuel : ℕ) : Records (fuel + 1) (Feeds dev) where
  putc := fun ch h => ⟨_, h.putc hopen fuel ch, h.dev, rfl⟩
  alloc := fun {s w} h => by
    rcases hfifo : s.fifo with - | fifo
    · rw [consoleAllocKfifo, hfifo]
      exact ⟨h.dev, h.sent⟩
    · rw [consoleAllocKfifo, hfifo]
      exact h

/-- The drain sends what is queued, and `console_putc` puts none of it back. -/
theorem Feeds.drain (hopen : dev.openFlag ≠ 0) (fuel : ℕ) : ∀ {n : ℕ} {s w fifo},
    Feeds dev s w → s.fifo = some fifo → fifo.Valid → fifo.queue.length < n →
      ∃ s', consoleDrain (fuel + 1) n s = some s' ∧ s'.Feeds dev (w ++ fifo.queue) := by
  intro n
  induction n with
  | zero => exact fun _ _ _ hn => absurd hn (Nat.not_lt_zero _)
  | succ n ih =>
    intro s w fifo h hfifo hv hn
    obtain ⟨fifo', hget, hv', -, hq'⟩ := hv.getc
    simp only [consoleDrain, hfifo, hget, Option.bind_eq_bind, Option.bind_some]
    rcases hq : fifo.queue with - | ⟨ch, tail⟩
    · rw [List.append_nil]
      exact ⟨{ s with fifo := some fifo' }, rfl, h.dev, h.sent⟩
    · rw [hq] at hq' hn
      obtain rfl := h.sent
      have hput := Feeds.putc (s := { s with fifo := some fifo' }) ⟨h.dev, rfl⟩ hopen fuel ch
      obtain ⟨s', heq, hs'⟩ := ih (s := { s with fifo := some fifo', sent := s.sent ++ [ch] })
        ⟨h.dev, rfl⟩ rfl hv' (by rw [hq']; exact Nat.lt_of_succ_lt_succ hn)
      rw [hq', List.append_assoc] at hs'
      refine ⟨s', ?_, hs'⟩
      simp only [List.head?_cons, hput, Option.bind_some]
      exact heq

/-- **register_console**, after the calls before it. -/
theorem Keeps.register (h : s.Keeps w) (hopen : dev.openFlag ≠ 0) :
    ∃ s', registerConsole 257 s (some dev) = some s' ∧ s'.Feeds dev (w.rtake 256) := by
  rw [registerConsole]
  rcases hfifo : s.fifo with - | fifo
  · rw [h.unset hfifo, List.rtake_nil]
    exact ⟨{ s with dev := some dev }, by simp [hfifo], rfl, h.sent⟩
  · obtain ⟨hv, hsize, hq⟩ := h.queue fifo hfifo
    have hlen : fifo.queue.length < 257 := by
      have hle := hv.used_le
      rw [hsize] at hle
      rw [Kfifo.queue_length]
      exact Nat.lt_succ_of_le hle
    obtain ⟨s', heq, hs'⟩ := Feeds.drain hopen 256 (s := { s with dev := some dev }) ⟨rfl, h.sent⟩
      hfifo hv hlen
    rw [hq, List.nil_append] at hs'
    refine ⟨s', ?_, hs'⟩
    rw [← heq]
    simp [hfifo]

end Console

/-- **The console.**  Whatever is written before and after an open device is registered, it is sent
the last 256 characters of the former and all of the latter. -/
theorem console_delivers (buffer : ℕ → UInt8) (before after : List ConsoleCall)
    (dev : TSerialDevice) (hopen : dev.openFlag ≠ 0) : Delivers buffer before dev after := by
  obtain ⟨s₁, hbefore, h₁⟩ := (Console.records_keeps 256).run before (Console.keeps_boot buffer)
  obtain ⟨s₂, hreg, h₂⟩ := h₁.register hopen
  obtain ⟨s₃, hafter, h₃⟩ := (Console.records_feeds hopen 256).run after h₂
  refine ⟨257, s₃, ?_, ?_⟩
  · rw [consoleRun, hbefore, Option.bind_eq_bind, Option.bind_some, hreg, Option.bind_some, hafter]
  · rw [h₃.sent, List.nil_append]

/-- 260 characters written before, with no FIFO set up, and one after. -/
theorem console_delivers_run :
    Delivers (fun _ => 0) [.putstring (List.replicate 260 0x41)] ⟨0, 0, 0, 0, 1⟩ [.putc 0x42] :=
  console_delivers (fun _ => 0) [.putstring (List.replicate 260 0x41)] [.putc 0x42]
    ⟨0, 0, 0, 0, 1⟩ (by decide)

/-! ### A device that is not open -/

/-- The report of the assertion is written to the same device. -/
theorem consolePutc_not_open {dev : TSerialDevice} (hclosed : dev.openFlag = 0) (fuel : ℕ) :
    ∀ {s : Console} (ch : UInt8), s.dev = some dev → consolePutc fuel s ch = none := by
  induction fuel with
  | zero => exact fun _ _ => rfl
  | succ fuel ih =>
    intro s ch hdev
    obtain ⟨c, text, htext⟩ : ∃ c text, assertReport = c :: text := ⟨_, _, rfl⟩
    have hputc : fputc (consolePutc fuel) s c = none := by
      rw [fputc]
      by_cases hc : c = 0x0A
      · rw [if_pos hc, ih 0x0D hdev]
        rfl
      · rw [if_neg hc]
        exact ih c hdev
    have hreport : assertFailed (consolePutc fuel) s = none := by
      rw [assertFailed, htext, List.foldlM_cons, hputc]
      rfl
    simp only [consolePutc, hdev, usartSendbyte, if_neg (not_not.mpr hclosed), hreport]
    rfl

/-- The first character written to a device that is registered, but not open, does not return. -/
theorem console_not_delivered : ¬ Delivers (fun _ => 0) [] ⟨0, 0, 0, 0, 0⟩ [.putc 0x41] := by
  rintro ⟨fuel, s, hrun, -⟩
  have hnone : consolePutc fuel { Console.boot (fun _ => 0) with dev := some ⟨0, 0, 0, 0, 0⟩ } 0x41 =
      none :=
    consolePutc_not_open (show TSerialDevice.openFlag ⟨0, 0, 0, 0, 0⟩ = 0 from rfl) fuel 0x41 rfl
  have hreg : registerConsole fuel (.boot fun _ => 0) (some ⟨0, 0, 0, 0, 0⟩) =
      some { Console.boot (fun _ => 0) with dev := some ⟨0, 0, 0, 0, 0⟩ } := rfl
  rw [consoleRun, exec, Option.bind_eq_bind, Option.bind_some, hreg, Option.bind_some, exec,
    consoleStep, hnone] at hrun
  cases hrun

end Start01
