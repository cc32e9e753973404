/-
Start01/Scan.lean

What `ParseDebugCommMsg` accepts.  The reference is a scanner for 11-byte
windows that begin with `FE 7F` (`frames`, an instance of `Windows.scan`), and
a big-endian decoder of one window (`decodeWindow`), both stated without the
two counters of the C loop.

`parseLoop_eq` relates them: while `i + left = len`, the loop at index `i` makes
the calls of the scanner on the rest of the buffer.  The relation between the
counters is what keeps every read inside the buffer, and `left` is the measure
that ends the loop.

The checksum byte of a window is never looked at: the test of
`CheckSum(data+i,10)` against `data[i+10]` is commented out in the source.  So a
call of `Cmd_Service` is made on behalf of a damaged window like any other, and
the buffers on which this never happens are those of the grammar `Intact`.
-/
import Start01.Frame
import Start01.Lib.Windows

namespace Start01

/-! ### The reference scanner -/

instance : NeZero msgLen := ⟨by decide⟩

/-- A window begins with the header bytes. -/
def startsFrame (w : List UInt8) : Bool := w.getD 0 0 == 0xFE && w.getD 1 0 == 0x7F

/-- The message in a window, read big-endian. -/
def decodeWindow (w : List UInt8) : TCommMsg where
  devId := UInt16.ofNat (256 * (w.getD 2 0).toNat + (w.getD 3 0).toNat)
  dir := w.getD 4 0
  cmd := w.getD 5 0
  pad := ![w.getD 9 0, w.getD 8 0, w.getD 7 0, w.getD 6 0]

/-- The windows of a buffer, from left to right, with their positions. -/
abbrev frames (data : List UInt8) : List (ℕ × List UInt8) :=
  Windows.scan msgLen startsFrame 0 data

/-- The last byte of a window is the sum of the ten bytes before it. -/
def SumOk (w : List UInt8) : Prop := w[10]? = some (checkSum w 10)

instance (w : List UInt8) : Decidable (SumOk w) := by unfold SumOk; infer_instance

/-- A well-formed frame: eleven bytes, the header, and the right sum. -/
def ValidFrame (w : List UInt8) : Prop := w.length = msgLen ∧ startsFrame w = true ∧ SumOk w

/-- A sequence of intact frames, of bytes at which no header starts, and of a
tail shorter than a frame. -/
abbrev Intact (data : List UInt8) : Prop := Windows.Segmented msgLen startsFrame SumOk data

/-- Calling the service on the windows of a list, in order. -/
def serveFrames {σ : Type} (svc : σ → ℕ → TCommMsg → Option σ) (s : σ)
    (ws : List (ℕ × List UInt8)) : Option σ :=
  ws.foldlM (fun s c => svc s c.1 (decodeWindow c.2)) s

/-! ### One window of the loop -/

theorem devId_eq (hi lo : UInt8) :
    (hi.toUInt16 <<< 8) + lo.toUInt16 = UInt16.ofNat (256 * hi.toNat + lo.toNat) := by
  apply UInt16.toNat_inj.mp
  have h1 := hi.toNat_lt
  have h2 := lo.toNat_lt
  simp [UInt16.toNat_add, UInt16.toNat_shiftLeft, Nat.shiftLeft_eq]
  omega

/-- The bytes the loop reads at index `i` are those of the window there. -/
theorem rd_window {data : List UInt8} {len i k : ℕ} (hlen : len ≤ data.length)
    (h32 : len < 4294967296) (hi : i + 11 ≤ len) (hk : k < 11) :
    rd data (i + k) = some ((((data.take len).drop i).take msgLen).getD k 0) := by
  have hik : i + k < data.length := by omega
  rw [rd, u32_of_lt (by omega), List.getD_eq_getElem?_getD, List.getElem?_take_of_lt (show k < msgLen from hk),
    List.getElem?_drop, List.getElem?_take_of_lt (by omega), List.getElem?_eq_getElem hik,
    Option.getD_some]

theorem headerAt_window {data w : List UInt8} {i : ℕ}
    (h : ∀ k < 11, rd data (i + k) = some (w.getD k 0)) :
    headerAt data i = some (startsFrame w) := by
  have h0 := h 0 (by omega)
  have h1 := h 1 (by omega)
  rw [Nat.add_zero] at h0
  simp only [headerAt, startsFrame, h0, h1, Option.bind_eq_bind, Option.bind_some]
  by_cases hb : w.getD 0 0 = 0xFE
  · rw [if_pos hb, hb]; rfl
  · rw [if_neg hb, beq_eq_false_iff_ne.mpr hb, Bool.false_and]; rfl

theorem readMsg_window {data w : List UInt8} {i : ℕ}
    (h : ∀ k < 11, rd data (i + k) = some (w.getD k 0)) :
    readMsg data i = some (decodeWindow w) := by
  simp only [readMsg, h 2 (by omega), h 3 (by omega), h 4 (by omega), h 5 (by omega),
    h 6 (by omega), h 7 (by omega), h 8 (by omega), h 9 (by omega), Option.bind_eq_bind,
    Option.bind_some, devId_eq]
  rfl

/-! ### The loop -/

variable {σ : Type}

/-- **Loop invariant.**  While `i + left = len`, the loop serves the windows of
the rest of the buffer; it needs one unit of fuel for every byte left. -/
theorem parseLoop_eq (svc : σ → ℕ → TCommMsg → Option σ) {data : List UInt8} {len : ℕ}
    (hlen : len ≤ data.length) (h32 : len < 4294967296) :
    ∀ {fuel i left : ℕ} (s : σ), i + left = len → left < fuel →
      parseLoop svc data len fuel i left s
        = serveFrames svc s (Windows.scan msgLen startsFrame i ((data.take len).drop i)) := by
  intro fuel
  induction fuel with
  | zero => intro i left s _ hf; exact absurd hf (Nat.not_lt_zero left)
  | succ fuel ih =>
    intro i left s hinv hf
    have hrest : ((data.take len).drop i).length = left := by
      rw [List.length_drop, List.length_take]; omega
    by_cases hgo : 11 ≤ left
    · have hrd := fun k (hk : k < 11) => rd_window hlen h32 (i := i) (by omega) hk
      rw [parseLoop, if_pos ⟨by omega, hgo⟩, headerAt_window hrd, readMsg_window hrd]
      by_cases hs : startsFrame (((data.take len).drop i).take msgLen) = true
      · -- a window: both counters move by eleven
        have hnext : u32 (u32 (i + 10) + 1) = i + 11 := by
          rw [u32_of_lt (n := i + 10) (by omega), u32_of_lt (by omega)]
        rw [Windows.scan_window (by rw [hrest]; exact hgo) hs, List.drop_drop, hs]
        simp only [Option.bind_eq_bind, Option.bind_some, if_true, serveFrames, List.foldlM_cons,
          hnext, u32Sub_of_le hgo (by omega)]
        congr 1
        funext s'
        exact ih s' (by omega) (by omega)
      · -- no header here: both counters move by one
        obtain ⟨b, rest, hcons⟩ : ∃ b rest, (data.take len).drop i = b :: rest :=
          List.exists_cons_of_length_pos (by omega)
        have htail : rest = (data.take len).drop (i + 1) := by
          rw [← List.drop_drop, hcons]; rfl
        rw [hcons] at hs
        rw [hcons, Windows.scan_skip fun h => hs h.2, Bool.eq_false_iff.mpr hs, htail]
        simp only [Option.bind_eq_bind, Option.bind_some, Bool.false_eq_true, if_false]
        rw [u32_of_lt (by omega), u32Sub_of_le (by omega) (by omega)]
        exact ih s (by omega) (by omega)
    · rw [parseLoop, if_neg (fun h => hgo h.2),
        Windows.scan_short (by rw [hrest]; show left < 11; omega)]
      rfl

/-- **The parser refines the scanner**, on the first `len` bytes of a buffer of
at least that many. -/
theorem parseDebugCommMsg_eq (svc : σ → ℕ → TCommMsg → Option σ) {data : List UInt8} {len : ℕ}
    (hlen : len ≤ data.length) (h32 : len < 4294967296) (s : σ) :
    parseDebugCommMsg svc data len s = serveFrames svc s (frames (data.take len)) := by
  by_cases hshort : len < msgLen
  · have hnone : frames (data.take len) = [] :=
      Windows.scan_short (by rw [List.length_take]; omega)
    rw [parseDebugCommMsg, if_pos hshort, hnone]
    rfl
  · rw [parseDebugCommMsg, if_neg hshort,
      parseLoop_eq svc hlen h32 s (Nat.zero_add len) (Nat.lt_succ_self len), List.drop_zero]

/-- The calls of `Cmd_Service` on a buffer are the decoded windows. -/
theorem parseCalls_eq {data : List UInt8} (h32 : data.length < 4294967296) :
    parseCalls data = some ((frames data).map fun c => (c.1, decodeWindow c.2)) := by
  have hfold : ∀ (ws : List (ℕ × List UInt8)) (acc : List (ℕ × TCommMsg)),
      serveFrames (fun calls i msg => some (calls ++ [(i, msg)])) acc ws
        = some (acc ++ ws.map fun c => (c.1, decodeWindow c.2)) := by
    intro ws
    induction ws with
    | nil => intro acc; simp [serveFrames]
    | cons c ws ih =>
      intro acc
      have hstep := ih (acc ++ [(c.1, decodeWindow c.2)])
      simp only [serveFrames] at hstep
      simp [serveFrames, hstep]
  rw [parseCalls, parseDebugCommMsg_eq _ le_rfl h32, List.take_length, hfold, List.nil_append]

/-- What every call keeps holds after the calls of a list of windows. -/
theorem serveFrames_invariant {svc : σ → ℕ → TCommMsg → Option σ} (P : σ → Prop)
    (hstep : ∀ s i msg s', P s → svc s i msg = some s' → P s') {ws : List (ℕ × List UInt8)} :
    ∀ {s s' : σ}, P s → serveFrames svc s ws = some s' → P s' := by
  induction ws with
  | nil =>
    intro s s' hP h
    exact Option.some.inj h ▸ hP
  | cons c ws ih =>
    intro s s' hP h
    simp only [serveFrames, List.foldlM_cons, Option.bind_eq_bind, Option.bind_eq_some_iff] at h
    obtain ⟨s₁, h₁, h₂⟩ := h
    exact ih (hstep s c.1 (decodeWindow c.2) s₁ hP h₁) h₂

/-! ### Frames and messages -/

theorem devId_split (x : UInt16) :
    UInt16.ofNat (256 * (x >>> 8).toUInt8.toNat + (x &&& 0xFF).toUInt8.toNat) = x := by
  apply UInt16.toNat_inj.mp
  have hx := x.toNat_lt
  have hlo : ∀ n, n &&& 255 = n % 256 := fun n => Nat.and_two_pow_sub_one_eq_mod n 8
  simp [Nat.shiftRight_eq_div_pow, hlo]
  omega

theorem devId_high (hi lo : UInt8) :
    (UInt16.ofNat (256 * hi.toNat + lo.toNat) >>> 8).toUInt8 = hi := by
  apply UInt8.toNat_inj.mp
  have h1 := hi.toNat_lt
  have h2 := lo.toNat_lt
  simp [Nat.shiftRight_eq_div_pow]
  omega

theorem devId_low (hi lo : UInt8) :
    (UInt16.ofNat (256 * hi.toNat + lo.toNat) &&& 0xFF).toUInt8 = lo := by
  apply UInt8.toNat_inj.mp
  have h1 := hi.toNat_lt
  have h2 := lo.toNat_lt
  have hlo := Nat.and_two_pow_sub_one_eq_mod ((256 * hi.toNat + lo.toNat) % 65536) 8
  simp only [UInt16.toNat_toUInt8, UInt16.toNat_and, UInt16.toNat_ofNat', UInt16.toNat_ofNat]
  simp only [Nat.reducePow, Nat.reduceSub, Nat.reduceMod] at hlo ⊢
  omega

/-- Decoding inverts building. -/
@[simp] theorem decodeWindow_frameBytes (msg : TCommMsg) : decodeWindow (frameBytes msg) = msg := by
  obtain ⟨devId, dir, cmd, pad⟩ := msg
  have hpad : ![pad 0, pad 1, pad 2, pad 3] = pad := by
    funext i; fin_cases i <;> rfl
  simp only [decodeWindow, frameBytes, frameHead, List.cons_append, List.getD_cons_zero,
    List.getD_cons_succ, devId_split, hpad]

/-- What `BuildDebugMsgBuf` builds is a well-formed frame. -/
theorem frameBytes_valid (msg : TCommMsg) : ValidFrame (frameBytes msg) := by
  refine ⟨rfl, rfl, ?_⟩
  show some (checkSum (frameHead msg) 10) = some (checkSum (frameBytes msg) 10)
  rfl

/-- Building inverts decoding on the ten bytes before the sum. -/
theorem frameHead_decodeWindow {w : List UInt8} (hlen : w.length = msgLen)
    (hs : startsFrame w = true) : frameHead (decodeWindow w) = w.take 10 := by
  match w, hlen with
  | [b0, b1, b2, b3, b4, b5, b6, b7, b8, b9, b10], _ =>
    obtain ⟨h0, h1⟩ : b0 = 0xFE ∧ b1 = 0x7F := by simpa [startsFrame] using hs
    simp only [frameHead, decodeWindow, List.getD_cons_zero, List.getD_cons_succ, devId_high,
      devId_low, h0, h1]
    rfl

/-- A well-formed frame is the one built from its own message. -/
theorem ValidFrame.frameBytes_eq {w : List UInt8} (h : ValidFrame w) :
    frameBytes (decodeWindow w) = w := by
  obtain ⟨hlen, hs, hsum⟩ := h
  have hhead := frameHead_decodeWindow hlen hs
  have hlast : checkSum (w.take 10) 10 = checkSum w 10 := by
    unfold checkSum; rw [List.take_take, Nat.min_self]
  have hdrop : w.drop 10 = [checkSum w 10] := by
    have hd : w.drop 10 = w[10]?.toList := by
      match w, hlen with
      | [_, _, _, _, _, _, _, _, _, _, _], _ => rfl
    rw [hd, hsum]; rfl
  rw [frameBytes, hhead, hlast, ← hdrop, List.take_append_drop]

/-- The windows of a buffer have the length of a frame and its header. -/
theorem frames_window {data : List UInt8} {c : ℕ × List UInt8} (h : c ∈ frames data) :
    c.2.length = msgLen ∧ startsFrame c.2 = true := by
  obtain ⟨j, -, hj, hw, hs⟩ := Windows.mem_scan h
  refine ⟨?_, hs⟩
  rw [hw, List.length_take, List.length_drop]
  omega

/-- A run of frames built one after the other is cut back into their messages. -/
theorem frames_flatMap (msgs : List TCommMsg) :
    (frames (msgs.flatMap frameBytes)).map (fun c => decodeWindow c.2) = msgs := by
  have hblocks : (frames (msgs.flatMap frameBytes)).map Prod.snd = msgs.map frameBytes := by
    rw [List.flatMap_def]
    refine Windows.scan_blocks (fun w hw => ?_) 0
    obtain ⟨m, -, rfl⟩ := List.mem_map.mp hw
    exact ⟨(frameBytes_valid m).1, (frameBytes_valid m).2.1⟩
  have hcomp : (fun c : ℕ × List UInt8 => decodeWindow c.2) = decodeWindow ∘ Prod.snd := rfl
  rw [hcomp, ← List.map_map, hblocks, List.map_map]
  simp [Function.comp_def]

/-- **The parser against the scanner and the frame builder.**  On a buffer of any
length the parser returns, reads nothing outside the buffer and makes exactly the
calls of the reference scanner, in order and whatever `Cmd_Service` does; a
concatenation of built frames dispatches exactly the messages they were built
from; and building the message of a taken window reproduces its first ten bytes. -/
theorem parseDebugCommMsg_refines_scan (data : List UInt8) (h32 : data.length < 4294967296) :
    (∀ (σ : Type) (svc : σ → ℕ → TCommMsg → Option σ) (s : σ),
      parseDebugCommMsg svc data data.length s = serveFrames svc s (frames data)) ∧
    parseCalls data = some ((frames data).map fun c => (c.1, decodeWindow c.2)) ∧
    (∀ msgs : List TCommMsg, data = msgs.flatMap frameBytes →
      (parseCalls data).map (List.map Prod.snd) = some msgs) ∧
    (∀ c ∈ frames data, ∀ buf : List UInt8,
      ∃ out, buildDebugMsgBuf (some (decodeWindow c.2)) (some buf) 11 = (11, some out) ∧
        out.take 10 = c.2.take 10) := by
  refine ⟨fun σ svc s => ?_, parseCalls_eq h32, fun msgs hdata => ?_, fun c hc buf => ?_⟩
  · rw [parseDebugCommMsg_eq svc le_rfl h32, List.take_length]
  · rw [parseCalls_eq h32, Option.map_some, List.map_map, hdata]
    exact congrArg some (frames_flatMap msgs)
  · obtain ⟨hlen, hs⟩ := frames_window hc
    refine ⟨_, rfl, ?_⟩
    rw [frameBytes, List.append_assoc, List.take_append_of_le_length (by simp),
      List.take_of_length_le (by simp), frameHead_decodeWindow hlen hs]

/-- Two frames built one after the other: the hypothesis holds and both messages
are dispatched, in order. -/
theorem parseDebugCommMsg_refines_scan_two_frames :
    (parseCalls ([⟨1, 1, 0, ![5, 0, 0, 0]⟩, ⟨2, 2, 13, ![0xFE, 0x7F, 0, 1]⟩].flatMap frameBytes)).map
        (List.map Prod.snd)
      = some [⟨1, 1, 0, ![5, 0, 0, 0]⟩, ⟨2, 2, 13, ![0xFE, 0x7F, 0, 1]⟩] :=
  (parseDebugCommMsg_refines_scan _ (by decide)).2.2.1 _ rfl

/-! ### The checksum -/

/-- Every call of `Cmd_Service` on this buffer is made for a window whose last
byte is the sum of its first ten. -/
def SumGuarded (data : List UInt8) : Prop :=
  ∃ calls, parseCalls data = some calls ∧ ∀ c ∈ calls, SumOk ((data.drop c.1).take msgLen)

/-- **When the checksum is respected.**  The parser does not look at the last byte
of a window, so it respects the checksum exactly on the buffers in which no
damaged frame stands where the scan looks for one. -/
theorem sumGuarded_iff_intact (data : List UInt8) (h32 : data.length < 4294967296) :
    SumGuarded data ↔ Intact data := by
  have hwin : ∀ c ∈ frames data, (data.drop c.1).take msgLen = c.2 := by
    intro c hc
    obtain ⟨j, hp, -, hw, -⟩ := Windows.mem_scan hc
    rw [hp, Nat.zero_add, hw]
  refine Iff.trans ?_ (Windows.forall_mem_scan_iff 0 data)
  constructor
  · rintro ⟨calls, hcalls, hok⟩ c hc
    rw [parseCalls_eq h32, Option.some.injEq] at hcalls
    have hmem : (c.1, decodeWindow c.2) ∈ calls := hcalls ▸ List.mem_map_of_mem hc
    exact hwin c hc ▸ hok _ hmem
  · intro h
    refine ⟨_, parseCalls_eq h32, fun c' hc' => ?_⟩
    obtain ⟨c, hc, rfl⟩ := List.mem_map.mp hc'
    exact (hwin c hc).symm ▸ h c hc

/-- A read request with the right sum, behind two bytes of noise, is served. -/
theorem sumGuarded_iff_intact_noise :
    SumGuarded [0x7F, 0xFE, 0xFE, 0x7F, 0, 0, 1, 0, 0, 0, 0, 0, 0x7E] :=
  (sumGuarded_iff_intact _ (by decide)).mpr
    (.skip (by decide) (by decide) (.skip (by decide) (by decide)
      (.window (by decide) (by decide) (by decide) (.tail (by decide)))))

/-- A write of 5 to `CMD_READ_INT1` whose sum byte is 0 instead of 84 hex is handed
to `Cmd_Service` all the same. -/
theorem damaged_frame_dispatched :
    ¬ ∀ data : List UInt8, data.length < 4294967296 → SumGuarded data := by
  intro h
  obtain ⟨calls, hcalls, hok⟩ :=
    h [0xFE, 0x7F, 0, 0, 2, 0, 0, 0, 0, 5, 0] (by decide)
  have hval : parseCalls [0xFE, 0x7F, 0, 0, 2, 0, 0, 0, 0, 5, 0]
      = some [(0, ⟨0, 2, 0, ![5, 0, 0, 0]⟩)] := by decide
  rw [hval, Option.some.injEq] at hcalls
  exact absurd (hok (0, ⟨0, 2, 0, ![5, 0, 0, 0]⟩) (by simp [← hcalls])) (by decide)

end Start01
