/-
Start01/AbccUtil.lean

util.c of the Anybus driver: timers counted in milliseconds, rings of pointers to messages, and
buffers for messages.

A ring keeps the pointers handed to it in the order in which they came (`OneQueueEntry.Holds`), and
refuses one only if it is full.
-/
import Start01.Lib.Ring

namespace Start01

open Ring

/-! ### Timers -/

/-- `util_OneTimerEntryType`. -/
structure OneTimerEntry where
  iTimeInMs : UInt16
  fEnabled : Bool

namespace OneTimerEntry

/-- `UTIL_ReloadTimer`. -/
def reload (iTime : UInt16) : OneTimerEntry := { iTimeInMs := iTime, fEnabled := true }

/-- `UTIL_StartTimer`. -/
def start (t : OneTimerEntry) : OneTimerEntry := { t with fEnabled := true }

/-- `UTIL_StopTimer`. -/
def stop (t : OneTimerEntry) : OneTimerEntry := { t with fEnabled := false }

/-- What `UTIL_RunTimerSystem` does for one timer, and whether it calls its function. -/
def run (t : OneTimerEntry) (iTickInMs : UInt16) : OneTimerEntry × Bool :=
  if t.fEnabled ∧ t.iTimeInMs ≠ 0 then
    if t.iTimeInMs ≤ iTickInMs then ({ t with iTimeInMs := 0 }, true)
    else ({ t with iTimeInMs := t.iTimeInMs - iTickInMs }, false)
  else (t, false)

end OneTimerEntry

/-! ### Queues -/

/-- `util_OneQueueEntry`: the array at `ppsStartPtr`, with the two other pointers as places in
it. -/
structure OneQueueEntry (α : Type*) where
  slots : ℕ → Option α
  insertPtr : ℕ
  removePtr : ℕ
  iCurrentNbrOfEntries : ℕ
  iMaxNbrOfEntries : ℕ

namespace OneQueueEntry

variable {α : Type*}

/-- `UTIL_CreateMessageQueue`. -/
def create (slots : ℕ → Option α) (iNumberOfElements : ℕ) : OneQueueEntry α where
  slots := slots
  insertPtr := 0
  removePtr := 0
  iCurrentNbrOfEntries := 0
  iMaxNbrOfEntries := iNumberOfElements

/-- `UTIL_AddToMessageQueue`; `none` is UTIL_QUEUE_FULL. -/
def add (q : OneQueueEntry α) (psBuffer : α) : Option (OneQueueEntry α) :=
  if q.iCurrentNbrOfEntries < q.iMaxNbrOfEntries then
    some { q with
      slots := Function.update q.slots q.insertPtr (some psBuffer)
      iCurrentNbrOfEntries := q.iCurrentNbrOfEntries + 1
      insertPtr := if q.insertPtr + 1 ≥ q.iMaxNbrOfEntries then 0 else q.insertPtr + 1 }
  else none

/-- `UTIL_GetFirstMessageFromQueue`; `none` is UTIL_QUEUE_EMPTY. -/
def getFirst (q : OneQueueEntry α) : Option (Option α × OneQueueEntry α) :=
  if q.iCurrentNbrOfEntries > 0 then
    some (q.slots q.removePtr, { q with
      slots := Function.update q.slots q.removePtr none
      iCurrentNbrOfEntries := q.iCurrentNbrOfEntries - 1
      removePtr := if q.removePtr + 1 ≥ q.iMaxNbrOfEntries then 0 else q.removePtr + 1 })
  else none

/-- `UTIL_EntriesLeftInMessageQueue`. -/
def entriesLeft (q : OneQueueEntry α) : ℕ := q.iMaxNbrOfEntries - q.iCurrentNbrOfEntries

/-- The pointers in the ring, the oldest first. -/
def contents (q : OneQueueEntry α) : List (Option α) :=
  window q.iMaxNbrOfEntries q.slots q.removePtr q.iCurrentNbrOfEntries

/-- A ring for `n` pointers holds these, the oldest first. -/
structure Holds (q : OneQueueEntry α) (n : ℕ) (l : List α) : Prop where
  size : q.iMaxNbrOfEntries = n
  pos : 0 < n
  removePtr_lt : q.removePtr < n
  insertPtr_eq : q.insertPtr = (q.removePtr + q.iCurrentNbrOfEntries) % n
  length_eq : q.iCurrentNbrOfEntries = l.length
  length_le : l.length ≤ n
  window_eq : window n q.slots q.removePtr l.length = l.map some

variable {q : OneQueueEntry α} {n : ℕ} {l : List α} {x : α}

theorem Holds.contents_eq (h : q.Holds n l) : q.contents = l.map some := by
  rw [contents, h.size, h.length_eq, h.window_eq]

theorem holds_create (slots : ℕ → Option α) (h : 0 < n) : (create slots n).Holds n [] where
  size := rfl
  pos := h
  removePtr_lt := h
  insertPtr_eq := (Nat.zero_mod n).symm
  length_eq := rfl
  length_le := Nat.zero_le n
  window_eq := rfl

/-- The next place of a ring. -/
theorem wrap_eq {i : ℕ} (h : i < n) : (if i + 1 ≥ n then 0 else i + 1) = (i + 1) % n := by
  split
  · rw [show i + 1 = n by omega, Nat.mod_self]
  · exact (Nat.mod_eq_of_lt (by omega)).symm

/-- A pointer comes last. -/
theorem Holds.add (h : q.Holds n l) (hlt : l.length < n) (x : α) :
    ∃ q', q.add x = some q' ∧ q'.Holds n (l ++ [x]) := by
  have hroom : q.iCurrentNbrOfEntries < q.iMaxNbrOfEntries := by
    rw [h.length_eq, h.size]
    exact hlt
  refine ⟨_, if_pos hroom, ?_⟩
  constructor
  · exact h.size
  · exact h.pos
  · exact h.removePtr_lt
  · show (if q.insertPtr + 1 ≥ q.iMaxNbrOfEntries then 0 else q.insertPtr + 1) = _
    rw [h.size, wrap_eq (by rw [h.insertPtr_eq]; exact Nat.mod_lt _ h.pos), h.insertPtr_eq,
      Nat.mod_add_mod]
    rfl
  · simp [h.length_eq]
  · simpa using hlt
  · have hcell : q.insertPtr = cell n (q.removePtr + l.length) 0 := by
      rw [h.insertPtr_eq, h.length_eq]
      rfl
    have hwrite := @window_write _ n q.slots q.removePtr l.length 1 hlt fun _ => some x
    rw [List.length_append, List.map_append, ← h.window_eq]
    show window n (Function.update q.slots q.insertPtr (some x)) q.removePtr (l.length + 1) = _
    rw [hcell]
    exact hwrite

/-- The oldest pointer leaves first. -/
theorem Holds.getFirst (h : q.Holds n (x :: l)) :
    ∃ q', q.getFirst = some (some x, q') ∧ q'.Holds n l := by
  have hlen := h.length_eq
  have hle := h.length_le
  have hsome : q.iCurrentNbrOfEntries > 0 := by
    rw [hlen]
    exact Nat.succ_pos _
  have hwindow := h.window_eq
  rw [List.length_cons, Nat.add_comm, window_add, List.map_cons] at hwindow
  obtain ⟨hfirst, hrest⟩ := List.cons.inj hwindow
  have hslot : q.slots q.removePtr = some x := by
    have hcell : q.removePtr = (q.removePtr + 0) % n := (Nat.mod_eq_of_lt h.removePtr_lt).symm
    rw [hcell]
    exact hfirst
  refine ⟨_, by rw [OneQueueEntry.getFirst, if_pos hsome, hslot], ?_⟩
  have hnext : (if q.removePtr + 1 ≥ q.iMaxNbrOfEntries then 0 else q.removePtr + 1)
      = (q.removePtr + 1) % n := by
    rw [h.size, wrap_eq h.removePtr_lt]
  constructor
  · exact h.size
  · exact h.pos
  · show (if q.removePtr + 1 ≥ q.iMaxNbrOfEntries then 0 else q.removePtr + 1) < n
    rw [hnext]
    exact Nat.mod_lt _ h.pos
  · show q.insertPtr = ((if q.removePtr + 1 ≥ q.iMaxNbrOfEntries then 0 else q.removePtr + 1)
      + (q.iCurrentNbrOfEntries - 1)) % n
    rw [hnext, Nat.mod_add_mod, h.insertPtr_eq]
    congr 1
    omega
  · show q.iCurrentNbrOfEntries - 1 = l.length
    rw [hlen, List.length_cons, Nat.add_sub_cancel]
  · exact Nat.le_of_succ_le hle
  · show window n (Function.update q.slots q.removePtr none)
      (if q.removePtr + 1 ≥ q.iMaxNbrOfEntries then 0 else q.removePtr + 1) l.length = l.map some
    rw [hnext, ← hrest, window_congr_start (Nat.mod_mod _ _)]
    apply window_congr
    intro i hi
    -- the place given free is not among those that stay
    refine Function.update_of_ne (fun heq => ?_) _ _
    have h0 : cell n q.removePtr (1 + i) = cell n q.removePtr 0 := by
      rw [cell, cell, ← Nat.add_assoc, heq, Nat.add_zero, Nat.mod_eq_of_lt h.removePtr_lt]
    have hin : 1 + i < n := by
      rw [List.length_cons] at hle
      omega
    exact absurd (cell_inj hin h.pos h0) (by omega)

/-- An empty ring gives none. -/
theorem Holds.getFirst_eq_none (h : q.Holds n []) : q.getFirst = none := by
  have hnone : ¬ q.iCurrentNbrOfEntries > 0 := by
    rw [h.length_eq]
    exact Nat.lt_irrefl 0
  exact if_neg hnone

end OneQueueEntry

/-! ### Buffers -/

/-- `UTIL_BufMsgType`: the message as the bytes it is in memory, and what is kept with it. -/
structure BufMsg where
  sMsg : ℕ → UInt8
  bNbrOfFragments : UInt8
  bFragCounter : UInt8
  fEntryUsed : Bool

/-- `UTIL_AllocateMsgBuffer`: the place of the first entry not in use; the caller is left to mark
it. -/
def allocateMsgBuffer (psFirstBufEntry : ℕ → BufMsg) (iBufLength : ℕ) : Option ℕ :=
  (List.range iBufLength).find? fun iEntry => !(psFirstBufEntry iEntry).fEntryUsed

end Start01
