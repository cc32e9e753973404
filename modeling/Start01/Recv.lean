/-
Start01/Recv.lean

`socket_recv` of network.c: the bytes of one delivery, a chain of pbufs, are
copied to the front of the static `recv_buf` and parsed at once.

A pbuf is the list of its payload bytes and a chain is the list of its pbufs; the
null chain is the empty one.  The copy loop stops taking bytes when the buffer is
full, and nothing of a delivery is kept for the next one.  So what is parsed is
the first 128 bytes of every delivery, each on its own, and a stream of frames
survives exactly when every delivery holds whole frames and fits the buffer
(`recvCalls_eq_sent_iff`).
-/
import Start01.Scan

namespace Start01

/-- `BUF_SIZE`. -/
def bufSize : ℕ := 128

/-- `recv_buf`, and how many bytes of a delivery it holds. -/
structure RecvBuf where
  bytes : List UInt8
  len : ℕ
  bytes_length : bytes.length = bufSize
  len_le : len ≤ bufSize

/-- `memcpy(recv_buf + len, q->payload, copy_len); len += copy_len;` -/
def RecvBuf.copy (b : RecvBuf) (q : List UInt8) : RecvBuf :=
  let copyLen := if bufSize - b.len < q.length then bufSize - b.len else q.length
  { bytes := b.bytes.take b.len ++ q.take copyLen ++ b.bytes.drop (b.len + copyLen)
    len := b.len + copyLen
    bytes_length := by
      have hb := b.bytes_length
      have hl := b.len_le
      simp only [List.length_append, List.length_take, List.length_drop, copyLen]
      split_ifs <;> omega
    len_le := by
      have hl := b.len_le
      simp only [copyLen]
      split_ifs <;> omega }

/-- The loop over the chain, from `len = 0`. -/
def RecvBuf.fill (b : RecvBuf) (p : List (List UInt8)) : RecvBuf :=
  p.foldl RecvBuf.copy { b with len := 0, len_le := Nat.zero_le bufSize }

variable {σ : Type}

/-- `socket_recv(arg, pcb, p, err)`: the state behind the service, and the buffer. -/
def socketRecv (svc : σ → ℕ → TCommMsg → Option σ) (b : RecvBuf) (p : List (List UInt8)) (s : σ) :
    Option (σ × RecvBuf) :=
  let b := b.fill p
  (parseDebugCommMsg svc b.bytes b.len s).map fun s => (s, b)

/-- One delivery after the other. -/
def socketRecvs (svc : σ → ℕ → TCommMsg → Option σ) :
    RecvBuf → List (List (List UInt8)) → σ → Option (σ × RecvBuf)
  | b, [], s => some (s, b)
  | b, p :: ps, s => (socketRecv svc b p s).bind fun r => socketRecvs svc r.2 ps r.1

/-- The messages handed to `Cmd_Service` over a sequence of deliveries. -/
def recvCalls (b : RecvBuf) (ps : List (List (List UInt8))) : Option (List TCommMsg) :=
  (socketRecvs (fun calls _ msg => some (calls ++ [msg])) b ps []).map Prod.fst

/-! ### What is parsed -/

/-- The part of the buffer that is in use. -/
def RecvBuf.used (b : RecvBuf) : List UInt8 := b.bytes.take b.len

theorem RecvBuf.used_length (b : RecvBuf) : b.used.length = b.len := by
  rw [RecvBuf.used, List.length_take, b.bytes_length]
  exact Nat.min_eq_left b.len_le

/-- Copying a pbuf appends its bytes, as far as there is room. -/
theorem RecvBuf.copy_used (b : RecvBuf) (q : List UInt8) :
    (b.copy q).used = (b.used ++ q).take bufSize := by
  have hl := b.len_le
  have hu := b.used_length
  set n := if bufSize - b.len < q.length then bufSize - b.len else q.length with hn
  have hmin : n = min (bufSize - b.len) q.length := by
    rw [hn]; split_ifs <;> omega
  have hlen : (b.used ++ q.take n).length = b.len + n := by
    rw [List.length_append, hu, List.length_take]; omega
  calc (b.copy q).used
      = (b.used ++ q.take n ++ b.bytes.drop (b.len + n)).take (b.len + n) := rfl
    _ = b.used ++ q.take n := by rw [← hlen, List.take_left]
    _ = b.used ++ q.take (bufSize - b.len) := by rw [hmin, ← List.take_take, List.take_length]
    _ = (b.used ++ q).take bufSize := by
        have hfit : b.used.length ≤ bufSize := by omega
        rw [List.take_append, hu, List.take_of_length_le hfit]

theorem RecvBuf.foldl_copy_used (p : List (List UInt8)) :
    ∀ b : RecvBuf, (p.foldl RecvBuf.copy b).used = (b.used ++ p.flatten).take bufSize := by
  induction p with
  | nil =>
    intro b
    rw [List.flatten_nil, List.append_nil, List.take_of_length_le (by rw [b.used_length]; exact b.len_le)]
    rfl
  | cons q p ih =>
    intro b
    rw [List.foldl_cons, ih, b.copy_used, List.flatten_cons, ← List.append_assoc]
    -- clipping before appending more changes nothing of the first `bufSize` bytes
    rw [List.take_append, List.take_take, Nat.min_self, @List.take_append _ (b.used ++ q)]
    congr 2
    rw [List.length_take]
    omega

/-- **One delivery.**  The buffer holds the first `bufSize` bytes of the chain. -/
theorem RecvBuf.fill_used (b : RecvBuf) (p : List (List UInt8)) :
    (b.fill p).used = p.flatten.take bufSize := by
  rw [RecvBuf.fill, RecvBuf.foldl_copy_used]
  rfl

/-- `socket_recv` serves the frames found in the first `bufSize` bytes. -/
theorem socketRecv_eq (svc : σ → ℕ → TCommMsg → Option σ) (b : RecvBuf) (p : List (List UInt8)) (s : σ) :
    socketRecv svc b p s
      = (serveFrames svc s (frames (p.flatten.take bufSize))).map fun s => (s, b.fill p) := by
  have hlen : (b.fill p).len ≤ (b.fill p).bytes.length := by
    rw [(b.fill p).bytes_length]; exact (b.fill p).len_le
  have h32 : (b.fill p).len < 4294967296 := lt_of_le_of_lt (b.fill p).len_le (by decide)
  show (parseDebugCommMsg svc (b.fill p).bytes (b.fill p).len s).map _ = _
  rw [parseDebugCommMsg_eq svc hlen h32]
  show Option.map _ (serveFrames svc s (frames (b.fill p).used)) = _
  rw [b.fill_used]

/-! ### A stream of frames -/

theorem serveFrames_collect (ws : List (ℕ × List UInt8)) :
    ∀ calls : List TCommMsg, serveFrames (fun calls _ msg => some (calls ++ [msg])) calls ws
      = some (calls ++ ws.map fun c => decodeWindow c.2) := by
  induction ws with
  | nil => intro calls; rw [List.map_nil, List.append_nil]; rfl
  | cons c ws ih =>
    intro calls
    have hrest := ih (calls ++ [decodeWindow c.2])
    rw [List.append_assoc, List.singleton_append] at hrest
    exact hrest

/-- The messages of a sequence of deliveries are those of the windows found in
each delivery, clipped to the buffer. -/
theorem recvCalls_eq (b : RecvBuf) (ps : List (List (List UInt8))) :
    recvCalls b ps
      = some ((Windows.piecewise msgLen startsFrame bufSize (ps.map List.flatten)).map decodeWindow) := by
  -- each delivery is parsed on its own, whatever the buffer held before
  have hrun : ∀ (ps : List (List (List UInt8))) (b : RecvBuf) (calls : List TCommMsg),
      (socketRecvs (fun calls _ msg => some (calls ++ [msg])) b ps calls).map Prod.fst
        = some (calls
          ++ (Windows.piecewise msgLen startsFrame bufSize (ps.map List.flatten)).map decodeWindow) := by
    intro ps
    induction ps with
    | nil =>
      intro b calls
      rw [List.map_nil, Windows.piecewise_nil, List.map_nil, List.append_nil]
      rfl
    | cons p ps ih =>
      intro b calls
      rw [socketRecvs, socketRecv_eq, serveFrames_collect, Option.map_some, Option.bind_some, ih,
        List.map_cons, Windows.piecewise_cons, List.map_append, List.map_map, List.append_assoc]
      rfl
  have h := hrun ps b []
  rw [List.nil_append] at h
  exact h

/-- **When a stream of frames survives its deliveries.**  Sent frames are dispatched
exactly, each once and in order, iff every delivery holds whole frames and fits
`recv_buf`. -/
theorem recvCalls_eq_sent_iff (ws : List (List UInt8)) (hws : ∀ w ∈ ws, ValidFrame w)
    (ps : List (List (List UInt8))) (hstream : ps.flatten.flatten = ws.flatten) (b : RecvBuf) :
    recvCalls b ps = some (ws.map decodeWindow) ↔
      ∀ p ∈ ps, msgLen ∣ p.flatten.length ∧ p.flatten.length ≤ bufSize := by
  have hframe : ∀ w ∈ ws, w.length = msgLen ∧ startsFrame w = true :=
    fun w hw => ⟨(hws w hw).1, (hws w hw).2.1⟩
  have hpieces : (ps.map List.flatten).flatten = ws.flatten := by
    rw [← hstream, List.flatten_flatten]
  rw [recvCalls_eq, Option.some.injEq]
  constructor
  · intro h p hp
    refine Windows.dvd_of_length_piecewise startsFrame ?_ p.flatten (List.mem_map_of_mem hp)
    -- counting is enough: lost bytes are lost windows
    have hcount := congrArg List.length h
    rw [List.length_map, List.length_map] at hcount
    rw [hcount, hpieces, Windows.length_flatten_blocks fun w hw => (hframe w hw).1]
  · intro h
    rw [Windows.piecewise_eq hframe hpieces fun d hd => ?_]
    obtain ⟨p, hp, rfl⟩ := List.mem_map.mp hd
    exact h p hp

/-- A fresh `recv_buf`. -/
def RecvBuf.zero : RecvBuf where
  bytes := List.replicate bufSize 0
  len := 0
  bytes_length := List.length_replicate
  len_le := Nat.zero_le bufSize

/-- Two requests in one delivery of two pbufs, the first frame cut between them. -/
theorem recvCalls_eq_sent_iff_two_pbufs :
    recvCalls RecvBuf.zero
        [[(frameBytes ⟨1, 1, 0, fun _ => 0⟩).take 4,
          (frameBytes ⟨1, 1, 0, fun _ => 0⟩).drop 4 ++ frameBytes ⟨1, 2, 0, fun _ => 7⟩]]
      = some ([frameBytes ⟨1, 1, 0, fun _ => 0⟩, frameBytes ⟨1, 2, 0, fun _ => 7⟩].map decodeWindow) := by
  refine (recvCalls_eq_sent_iff [frameBytes ⟨1, 1, 0, fun _ => 0⟩, frameBytes ⟨1, 2, 0, fun _ => 7⟩]
    (fun w hw => ?_) _ (by rfl) _).mpr fun p hp => ?_
  · rcases List.mem_pair.mp hw with rfl | rfl
    · exact frameBytes_valid _
    · exact frameBytes_valid _
  · rw [List.mem_singleton.mp hp]
    decide

/-- One request that TCP delivers as 4 and 7 bytes is lost. -/
theorem split_frame_lost :
    ¬ ∀ (ws : List (List UInt8)), (∀ w ∈ ws, ValidFrame w) → ∀ ps : List (List (List UInt8)),
        ps.flatten.flatten = ws.flatten → ∀ b, recvCalls b ps = some (ws.map decodeWindow) := by
  intro h
  have hlost := h [frameBytes ⟨1, 1, 0, fun _ => 0⟩]
    (fun w hw => List.mem_singleton.mp hw ▸ frameBytes_valid _)
    [[(frameBytes ⟨1, 1, 0, fun _ => 0⟩).take 4], [(frameBytes ⟨1, 1, 0, fun _ => 0⟩).drop 4]]
    rfl RecvBuf.zero
  exact absurd hlost (by decide)

end Start01
