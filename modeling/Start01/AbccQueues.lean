/-
Start01/AbccQueues.lean

Where the buffers of the Anybus driver are.  A buffer in use is in the queue of its pool or is held
by the driver, and once (`Queued`).  Each operation on buffers and queues keeps this, and a buffer
that is held always finds room in its queue (`Queued.add`).
-/
import Start01.Abcc

namespace Start01

/-- The pointers `ls` are in the queues, and `held` are held. -/
structure Queued (buf : BufRef → BufMsg) (queue : Pool → OneQueueEntry BufRef)
    (ls : Pool → List BufRef) (held : List BufRef) : Prop where
  holds : ∀ p, (queue p).Holds p.length (ls p)
  count : ∀ r, (ls r.pool).count r + held.count r = (buf r).fEntryUsed.toNat
  pool : ∀ p, ∀ r ∈ ls p, r.pool = p
  entry_lt : ∀ r, (buf r).fEntryUsed = true → r.entry < r.pool.length

namespace Queued

variable {buf : BufRef → BufMsg} {queue : Pool → OneQueueEntry BufRef}
  {ls : Pool → List BufRef} {held : List BufRef} {r r' : BufRef}

theorem used_of_mem (h : Queued buf queue ls held) {p : Pool} (hr : r ∈ ls p) :
    (buf r).fEntryUsed = true := by
  obtain rfl := h.pool p r hr
  have hcount := h.count r
  have hpos := List.count_pos_iff.mpr hr
  cases hused : (buf r).fEntryUsed with
  | true => rfl
  | false =>
    rw [hused] at hcount
    exact absurd hcount (by rw [Bool.toNat_false]; omega)

theorem used_of_held (h : Queued buf queue ls held) (hr : r ∈ held) :
    (buf r).fEntryUsed = true := by
  have hcount := h.count r
  have hpos := List.count_pos_iff.mpr hr
  cases hused : (buf r).fEntryUsed with
  | true => rfl
  | false =>
    rw [hused] at hcount
    exact absurd hcount (by rw [Bool.toNat_false]; omega)

/-- A buffer held is in no queue, and held once. -/
theorem count_of_held (h : Queued buf queue ls (r :: held)) :
    (ls r.pool).count r = 0 ∧ held.count r = 0 := by
  have hcount := h.count r
  rw [h.used_of_held List.mem_cons_self, List.count_cons_self, Bool.toNat_true] at hcount
  omega

theorem not_mem_of_held (h : Queued buf queue ls (r :: held)) (p : Pool) : r ∉ ls p := by
  intro hr
  obtain rfl := h.pool p r hr
  exact absurd (List.count_pos_iff.mpr hr) (by rw [h.count_of_held.1]; exact Nat.lt_irrefl 0)

/-- There is room for it in its queue. -/
theorem length_lt (h : Queued buf queue ls (r :: held)) :
    (ls r.pool).length < r.pool.length := by
  have hnodup : (r :: ls r.pool).Nodup := by
    refine List.nodup_cons.mpr ⟨h.not_mem_of_held r.pool, List.nodup_iff_count_le_one.mpr ?_⟩
    intro a
    by_cases ha : a ∈ ls r.pool
    · have hcount := h.count a
      rw [h.pool _ a ha, h.used_of_mem ha, Bool.toNat_true] at hcount
      omega
    · rw [List.count_eq_zero.mpr ha]
      exact Nat.zero_le 1
  have hpool : ∀ a ∈ r :: ls r.pool, a.pool = r.pool ∧ a.entry < r.pool.length := by
    intro a ha
    rcases List.mem_cons.mp ha with rfl | ha
    · exact ⟨rfl, h.entry_lt a (h.used_of_held List.mem_cons_self)⟩
    · have hp := h.pool _ a ha
      exact ⟨hp, hp ▸ h.entry_lt a (h.used_of_mem ha)⟩
  -- their entries are different numbers below the length of the pool
  have hentries : ((r :: ls r.pool).map BufRef.entry).Nodup := by
    refine List.Nodup.map_on (fun a ha b hb hab => ?_) hnodup
    obtain ⟨pa, ea⟩ := a
    obtain ⟨pb, eb⟩ := b
    obtain rfl : pa = pb := (hpool _ ha).1.trans (hpool _ hb).1.symm
    exact congrArg _ hab
  have hsub : (r :: ls r.pool).map BufRef.entry ⊆ List.range r.pool.length := by
    intro e he
    obtain ⟨a, ha, rfl⟩ := List.mem_map.mp he
    exact List.mem_range.mpr (hpool a ha).2
  have hle := (List.subperm_of_subset hentries hsub).length_le
  rwa [List.length_map, List.length_cons, List.length_range] at hle

/-! ### Buffers -/

/-- What else is in a buffer does not matter. -/
theorem write (h : Queued buf queue ls held) (b : BufMsg)
    (hb : b.fEntryUsed = (buf r).fEntryUsed) : Queued (Function.update buf r b) queue ls held := by
  have hused : ∀ r', (Function.update buf r b r').fEntryUsed = (buf r').fEntryUsed := by
    intro r'
    by_cases hr : r' = r
    · rw [hr, Function.update_self, hb]
    · rw [Function.update_of_ne hr]
  exact ⟨h.holds, fun r' => by rw [hused, h.count], h.pool,
    fun r' hr => h.entry_lt r' ((hused r').symm.trans hr)⟩

/-- A buffer that is not used is taken. -/
theorem allocate (h : Queued buf queue ls held) (hfree : (buf r).fEntryUsed = false)
    (hr : r.entry < r.pool.length) {b : BufMsg} (hb : b.fEntryUsed = true) :
    Queued (Function.update buf r b) queue ls (r :: held) := by
  refine ⟨h.holds, fun r' => ?_, h.pool, fun r' hr' => ?_⟩
  · by_cases heq : r' = r
    · have hcount := h.count r
      rw [hfree, Bool.toNat_false] at hcount
      rw [heq, Function.update_self, hb, List.count_cons_self, Bool.toNat_true]
      omega
    · rw [Function.update_of_ne heq, List.count_cons_of_ne (Ne.symm heq), h.count]
  · by_cases heq : r' = r
    · exact heq ▸ hr
    · rw [Function.update_of_ne heq] at hr'
      exact h.entry_lt r' hr'

/-- A buffer held is given free. -/
theorem free (h : Queued buf queue ls (r :: held)) {b : BufMsg} (hb : b.fEntryUsed = false) :
    Queued (Function.update buf r b) queue ls held := by
  obtain ⟨hls, hheld⟩ := h.count_of_held
  refine ⟨h.holds, fun r' => ?_, h.pool, fun r' hr' => ?_⟩
  · by_cases heq : r' = r
    · rw [heq, Function.update_self, hb, hls, hheld, Bool.toNat_false]
    · have hcount := h.count r'
      rw [List.count_cons_of_ne (Ne.symm heq)] at hcount
      rw [Function.update_of_ne heq]
      exact hcount
  · by_cases heq : r' = r
    · rw [heq, Function.update_self, hb] at hr'
      cases hr'
    · rw [Function.update_of_ne heq] at hr'
      exact h.entry_lt r' hr'

/-! ### Queues -/

/-- A buffer held goes into its queue. -/
theorem add (h : Queued buf queue ls (r :: held)) :
    ∃ q, (queue r.pool).add r = some q ∧
      Queued buf (Function.update queue r.pool q)
        (Function.update ls r.pool (ls r.pool ++ [r])) held := by
  obtain ⟨q, hq, hholds⟩ := (h.holds r.pool).add h.length_lt r
  refine ⟨q, hq, ⟨fun p => ?_, fun r' => ?_, fun p r' hr' => ?_, h.entry_lt⟩⟩
  · by_cases hp : p = r.pool
    · subst hp
      rw [Function.update_self, Function.update_self]
      exact hholds
    · rw [Function.update_of_ne hp, Function.update_of_ne hp]
      exact h.holds p
  · have hcount := h.count r'
    by_cases hp : r'.pool = r.pool
    · rw [hp, Function.update_self, List.count_append, ← hcount, ← hp]
      by_cases heq : r' = r
      · rw [heq, List.count_singleton_self, List.count_cons_self]
        omega
      · have hother : [r].count r' = 0 := List.count_eq_zero.mpr (by simpa using heq)
        have hheld := List.count_cons_of_ne (Ne.symm heq) (l := held)
        omega
    · rw [Function.update_of_ne hp, ← hcount, List.count_cons_of_ne]
      rintro rfl
      exact hp rfl
  · by_cases hp : p = r.pool
    · subst hp
      rw [Function.update_self] at hr'
      rcases List.mem_append.mp hr' with hr' | hr'
      · exact h.pool _ r' hr'
      · rw [List.mem_singleton.mp hr']
    · rw [Function.update_of_ne hp] at hr'
      exact h.pool p r' hr'

/-- The first buffer of a queue is taken out, and held. -/
theorem getFirst {p : Pool} {l : List BufRef} (h : Queued buf queue ls held)
    (hl : ls p = r :: l) :
    ∃ q, (queue p).getFirst = some (some r, q) ∧
      Queued buf (Function.update queue p q) (Function.update ls p l) (r :: held) := by
  have hpool : r.pool = p := h.pool p r (hl ▸ List.mem_cons_self)
  obtain ⟨q, hq, hholds⟩ := (hl ▸ h.holds p).getFirst
  refine ⟨q, hq, ⟨fun p' => ?_, fun r' => ?_, fun p' r' hr' => ?_, h.entry_lt⟩⟩
  · by_cases hp : p' = p
    · subst hp
      rw [Function.update_self, Function.update_self]
      exact hholds
    · rw [Function.update_of_ne hp, Function.update_of_ne hp]
      exact h.holds p'
  · have hcount := h.count r'
    by_cases hp : r'.pool = p
    · rw [hp, hl, List.count_cons] at hcount
      rw [hp, Function.update_self, List.count_cons, ← hcount]
      omega
    · rw [Function.update_of_ne hp, ← hcount, List.count_cons_of_ne]
      rintro rfl
      exact hp hpool
  · by_cases hp : p' = p
    · subst hp
      rw [Function.update_self] at hr'
      exact h.pool _ r' (hl ▸ List.mem_cons_of_mem r hr')
    · rw [Function.update_of_ne hp] at hr'
      exact h.pool p' r' hr'

theorem getFirst_eq_none {p : Pool} (h : Queued buf queue ls held) (hl : ls p = []) :
    (queue p).getFirst = none := by
  have hholds := h.holds p
  rw [hl] at hholds
  exact hholds.getFirst_eq_none

end Queued

end Start01
