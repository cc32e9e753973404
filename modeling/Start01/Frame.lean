/-
Start01/Frame.lean

The 11-byte command frame of DebugComm.c and the two functions that touch it
as bytes: `buildDebugMsgBuf`, which writes one frame, and `parseDebugCommMsg`,
which searches a receive buffer for frames and hands each one to `Cmd_Service`.

    FE 7F | dev_id hi lo | dir | cmd | pad[3] pad[2] pad[1] pad[0] | sum

Of `TCommMsg` the model keeps what some function reads: `dev_id`, `dir`, `cmd`
and the four parameter bytes.  The two header bytes are constants wherever they
are written and never read back; the `check` field of the struct is not used.

The parser is parametric in `Cmd_Service` (`svc`), which is given the index `i`
of the window besides the message.  The index is a ghost: the C function is
called with the message only.  A read outside the buffer, and running out of
fuel, are both `none`.  `u32` counters are natural numbers reduced mod 2^32.
-/
import Mathlib.Tactic

namespace Start01

/-- `TCommMsg`, with `param` as its four bytes `__pad.pad`. -/
structure TCommMsg where
  devId : UInt16
  dir : UInt8
  cmd : UInt8
  pad : Fin 4 → UInt8
deriving DecidableEq

/-- An index into `param.__pad.pad`; every access is below 4. -/
def padIndex (i : ℕ) : Fin 4 := Fin.ofNat 4 i

/-- `param.__pad.pad[i]`. -/
def TCommMsg.padAt (msg : TCommMsg) (i : ℕ) : UInt8 := msg.pad (padIndex i)

/-- `MSG_LEN`, that is `sizeof(TCommMsg)` of the packed struct. -/
def msgLen : ℕ := 11

/-! ### Building a frame -/

/-- `CheckSum(buf, len)`: the sum of the first `len` bytes in a `u8`. -/
def checkSum (buf : List UInt8) (len : ℕ) : UInt8 :=
  (buf.take len).foldl (· + ·) 0

/-- The first ten bytes `BuildDebugMsgBuf` stores. -/
def frameHead (msg : TCommMsg) : List UInt8 :=
  [0xFE, 0x7F, (msg.devId >>> 8).toUInt8, (msg.devId &&& 0xFF).toUInt8, msg.dir, msg.cmd,
    msg.pad 3, msg.pad 2, msg.pad 1, msg.pad 0]

/-- The eleven bytes `BuildDebugMsgBuf` stores. -/
def frameBytes (msg : TCommMsg) : List UInt8 :=
  frameHead msg ++ [checkSum (frameHead msg) 10]

/-- `BuildDebugMsgBuf(msg, buf, len)`: the value returned and the buffer
afterwards; `none` is the null pointer. -/
def buildDebugMsgBuf (msg : Option TCommMsg) (buf : Option (List UInt8)) (len : UInt8) :
    UInt8 × Option (List UInt8) :=
  match msg, buf with
  | some m, some b =>
      if len.toNat < msgLen then (0, some b) else (11, some (frameBytes m ++ b.drop 11))
  | _, _ => (0, buf)

@[simp] theorem frameHead_length (msg : TCommMsg) : (frameHead msg).length = 10 := rfl

@[simp] theorem frameBytes_length (msg : TCommMsg) : (frameBytes msg).length = 11 := rfl

/-! ### Parsing a buffer -/

/-- Reduction of a `u32` counter. -/
def u32 (n : ℕ) : ℕ := n % 4294967296

/-- `u32` subtraction. -/
def u32Sub (a b : ℕ) : ℕ := (a + 4294967296 - b) % 4294967296

theorem u32_of_lt {n : ℕ} (h : n < 4294967296) : u32 n = n := Nat.mod_eq_of_lt h

theorem u32Sub_of_le {a b : ℕ} (h : b ≤ a) (ha : a < 4294967296) : u32Sub a b = a - b := by
  unfold u32Sub; omega

/-- `data[i]`. -/
def rd (data : List UInt8) (i : ℕ) : Option UInt8 := data[u32 i]?

/-- `(data[i] == 0xfe) && (data[i+1] == 0x7f)`, the second byte read only when
the first one matches. -/
def headerAt (data : List UInt8) (i : ℕ) : Option Bool := do
  if (← rd data i) = 0xFE then return (← rd data (i + 1)) = 0x7F else return false

/-- The assignments to `__CommMsg`. -/
def readMsg (data : List UInt8) (i : ℕ) : Option TCommMsg := do
  let hi ← rd data (i + 2)
  let lo ← rd data (i + 3)
  let dir ← rd data (i + 4)
  let cmd ← rd data (i + 5)
  let p0 ← rd data (i + 9)
  let p1 ← rd data (i + 8)
  let p2 ← rd data (i + 7)
  let p3 ← rd data (i + 6)
  return ⟨(hi.toUInt16 <<< 8) + lo.toUInt16, dir, cmd, ![p0, p1, p2, p3]⟩

variable {σ : Type}

/-- The `for` loop of `ParseDebugCommMsg`, with its two counters `i` and `left`. -/
def parseLoop (svc : σ → ℕ → TCommMsg → Option σ) (data : List UInt8) (len : ℕ) :
    ℕ → ℕ → ℕ → σ → Option σ
  | 0, _, _, _ => none
  | fuel + 1, i, left, s =>
      if i < len ∧ 11 ≤ left then do
        if ← headerAt data i then
          let msg ← readMsg data i
          let s' ← svc s i msg
          -- left -= 11; i += 10; continue; and the i++ of the loop header
          parseLoop svc data len fuel (u32 (u32 (i + 10) + 1)) (u32Sub left 11) s'
        else
          parseLoop svc data len fuel (u32 (i + 1)) (u32Sub left 1) s
      else some s

/-- `ParseDebugCommMsg(src, data, len, ack)`, the arguments `src` and `ack` being
inside `svc`. -/
def parseDebugCommMsg (svc : σ → ℕ → TCommMsg → Option σ) (data : List UInt8) (len : ℕ) (s : σ) :
    Option σ :=
  if len < msgLen then some s else parseLoop svc data len (len + 1) 0 len s

/-- The calls of `Cmd_Service` made on a buffer: window index and message. -/
def parseCalls (data : List UInt8) : Option (List (ℕ × TCommMsg)) :=
  parseDebugCommMsg (fun calls i msg => some (calls ++ [(i, msg)])) data data.length []

end Start01
