/-
Start01/Lib/Windows.lean

Scanning a sequence for fixed-size windows.  Given a window size `k` and a test
`starts` on windows, the scanner goes from left to right: where at least `k`
elements remain and the next `k` of them pass the test it takes that window and
continues behind it; otherwise it drops one element.

`scan` is the scanner, with the position of every window it takes.  Main
results:

* `scan_blocks` — a concatenation of windows is cut back into those windows;
* `mul_length_scan_le` — the windows taken do not overlap;
* `forall_mem_scan_iff` — every window taken is good iff the sequence is made
  of good windows, elements where no window starts, and a short tail;
* `map_fst_scanBy_eq_iff` — a scanner that drops more where it takes no window finds
  windows at the same places iff none starts at what it drops unseen;
* `scanBy_append` — such a scanner, stopped where the sequence ends, goes on where it
  stopped when more arrives;
* `piecewise_eq`, `dvd_of_length_piecewise` — a stream of windows delivered in
  pieces, each piece clipped to `cap` elements and scanned on its own, yields the
  windows of the stream if every piece holds a whole number of windows and fits,
  and not even their number otherwise.
-/
import Mathlib.Tactic

namespace Windows

variable {α : Type*} (k : ℕ) [NeZero k] (starts : List α → Bool)

/-- The windows the scanner takes, each with its position; `pos` is the position
of the head of `data`. -/
def scan (pos : ℕ) (data : List α) : List (ℕ × List α) :=
  if h : k ≤ data.length ∧ starts (data.take k) = true then
    have _hk : 0 < k := NeZero.pos k
    (pos, data.take k) :: scan (pos + k) (data.drop k)
  else
    match data with
    | [] => []
    | _ :: rest => scan (pos + 1) rest
termination_by data.length
decreasing_by
  · rw [List.length_drop]; omega
  · simp

variable {k starts}

/-! ### Unfolding the scanner -/

theorem scan_window {pos : ℕ} {data : List α} (hlen : k ≤ data.length)
    (hs : starts (data.take k) = true) :
    scan k starts pos data = (pos, data.take k) :: scan k starts (pos + k) (data.drop k) := by
  rw [scan.eq_def, dif_pos ⟨hlen, hs⟩]

theorem scan_skip {pos : ℕ} {b : α} {rest : List α}
    (h : ¬ (k ≤ (b :: rest).length ∧ starts ((b :: rest).take k) = true)) :
    scan k starts pos (b :: rest) = scan k starts (pos + 1) rest := by
  rw [scan.eq_def, dif_neg h]

/-- Nothing is taken from fewer than `k` elements. -/
theorem scan_short {data : List α} : ∀ {pos : ℕ}, data.length < k → scan k starts pos data = [] := by
  induction data with
  | nil =>
    intro pos h
    rw [scan.eq_def, dif_neg (fun hk => absurd hk.1 (Nat.not_le.mpr h))]
  | cons b rest ih =>
    intro pos h
    rw [scan_skip fun hk => absurd hk.1 (Nat.not_le.mpr h)]
    exact ih (by simp at h; omega)

variable (k starts) in
/-- Case analysis on what the scanner does at the head, with the recursion
hypothesis for the part it leaves. -/
@[elab_as_elim]
theorem scan_induction {P : ℕ → List α → Prop}
    (nil : ∀ pos, P pos [])
    (window : ∀ pos data, k ≤ data.length → starts (data.take k) = true →
      P (pos + k) (data.drop k) → P pos data)
    (skip : ∀ pos b rest, ¬ (k ≤ (b :: rest).length ∧ starts ((b :: rest).take k) = true) →
      P (pos + 1) rest → P pos (b :: rest))
    (pos : ℕ) (data : List α) : P pos data := by
  induction hn : data.length using Nat.strong_induction_on generalizing pos data with
  | _ n ih =>
    subst hn
    have hk := NeZero.pos k
    by_cases h : k ≤ data.length ∧ starts (data.take k) = true
    · exact window pos data h.1 h.2
        (ih (data.drop k).length (by rw [List.length_drop]; omega) _ _ rfl)
    · cases data with
      | nil => exact nil pos
      | cons b rest => exact skip pos b rest h (ih rest.length (by simp) _ _ rfl)

/-! ### What is taken -/

/-- A taken window lies inside the data, passes the test, and is what the data
holds at its position. -/
theorem mem_scan {pos : ℕ} {data : List α} {p : ℕ} {w : List α} :
    (p, w) ∈ scan k starts pos data →
      ∃ j, p = pos + j ∧ j + k ≤ data.length ∧ w = (data.drop j).take k ∧ starts w = true := by
  induction pos, data using scan_induction k starts with
  | nil pos =>
    intro h
    rw [scan_short (by simpa using NeZero.pos k)] at h
    cases h
  | window pos data hlen hs ih =>
    intro h
    rw [scan_window hlen hs, List.mem_cons] at h
    rcases h with h | h
    -- the window in front, or one behind it
    · obtain ⟨rfl, rfl⟩ := Prod.mk.injEq .. ▸ h
      exact ⟨0, rfl, by omega, rfl, hs⟩
    · obtain ⟨j, hp, hj, hw, hst⟩ := ih h
      rw [List.length_drop] at hj
      rw [List.drop_drop] at hw
      exact ⟨k + j, by omega, by omega, hw, hst⟩
  | skip pos b rest hno ih =>
    intro h
    rw [scan_skip hno] at h
    obtain ⟨j, hp, hj, hw, hst⟩ := ih h
    exact ⟨j + 1, by omega, by simp; omega, hw, hst⟩

/-- Taken windows are disjoint, so there is room for each of them. -/
theorem mul_length_scan_le (pos : ℕ) (data : List α) :
    k * (scan k starts pos data).length ≤ data.length := by
  induction pos, data using scan_induction k starts with
  | nil pos => rw [scan_short (by simpa using NeZero.pos k)]; simp
  | window pos data hlen hs ih =>
    rw [List.length_drop] at ih
    rw [scan_window hlen hs, List.length_cons, Nat.mul_succ]
    omega
  | skip pos b rest hno ih =>
    rw [scan_skip hno, List.length_cons]
    omega

/-- **A concatenation of windows is cut back into those windows.** -/
theorem scan_blocks {ws : List (List α)} (hws : ∀ w ∈ ws, w.length = k ∧ starts w = true) :
    ∀ pos, (scan k starts pos ws.flatten).map Prod.snd = ws := by
  induction ws with
  | nil => intro pos; rw [List.flatten_nil, scan_short (by simpa using NeZero.pos k)]; rfl
  | cons w ws ih =>
    intro pos
    obtain ⟨hlen, hs⟩ := hws w List.mem_cons_self
    have htake : (w ++ ws.flatten).take k = w := by rw [← hlen, List.take_left]
    have hdrop : (w ++ ws.flatten).drop k = ws.flatten := by rw [← hlen, List.drop_left]
    rw [List.flatten_cons, scan_window (by rw [List.length_append]; omega) (by rw [htake]; exact hs),
      htake, hdrop, List.map_cons, ih fun v hv => hws v (List.mem_cons_of_mem w hv)]

/-! ### Sequences whose windows are all good -/

variable (k starts) in
/-- The grammar of the sequences all of whose windows satisfy `good`: a short
tail, a good window in front, or an element at which no window starts in front. -/
inductive Segmented (good : List α → Prop) : List α → Prop
  | tail {data} : data.length < k → Segmented good data
  | window {data} : k ≤ data.length → starts (data.take k) = true → good (data.take k) →
      Segmented good (data.drop k) → Segmented good data
  | skip {b rest} : k ≤ (b :: rest).length → starts ((b :: rest).take k) = false →
      Segmented good rest → Segmented good (b :: rest)

/-- **Every window taken is good iff the sequence is segmented by good windows.** -/
theorem forall_mem_scan_iff {good : List α → Prop} (pos : ℕ) (data : List α) :
    (∀ c ∈ scan k starts pos data, good c.2) ↔ Segmented k starts good data := by
  induction pos, data using scan_induction k starts with
  | nil pos =>
    have hk : ([] : List α).length < k := by simpa using NeZero.pos k
    rw [scan_short hk]
    exact ⟨fun _ => .tail hk, fun _ c hc => by cases hc⟩
  | window pos data hlen hs ih =>
    rw [scan_window hlen hs, List.forall_mem_cons, ih]
    constructor
    · rintro ⟨hg, hrest⟩
      exact .window hlen hs hg hrest
    · intro h
      cases h with
      | tail hlt => exact absurd hlen (Nat.not_le.mpr hlt)
      | window _ _ hg hrest => exact ⟨hg, hrest⟩
      | skip _ hno _ => rw [hs] at hno; cases hno
  | skip pos b rest hno ih =>
    rw [scan_skip hno, ih]
    by_cases hlen : k ≤ (b :: rest).length
    · have hs : starts ((b :: rest).take k) = false := by
        exact Bool.eq_false_iff.mpr fun hs => hno ⟨hlen, hs⟩
      constructor
      · exact fun h => .skip hlen hs h
      · intro h
        cases h with
        | tail hlt => exact absurd hlen (Nat.not_le.mpr hlt)
        | window _ hs' _ _ => rw [hs] at hs'; cases hs'
        | skip _ _ hrest => exact hrest
    · exact ⟨fun _ => .tail (Nat.not_le.mp hlen), fun _ => .tail (by simp at hlen; omega)⟩

/-! ### A scanner that drops more than one element -/

variable (k starts) in
/-- The scanner that, where it takes no window, drops `extra data` elements besides
the one it looked at. -/
def scanBy (extra : List α → ℕ) (pos : ℕ) (data : List α) : List (ℕ × List α) :=
  if h : k ≤ data.length then
    have _hk : 0 < k := NeZero.pos k
    if starts (data.take k) = true then
      (pos, data.take k) :: scanBy extra (pos + k) (data.drop k)
    else scanBy extra (pos + (extra data + 1)) (data.drop (extra data + 1))
  else []
termination_by data.length
decreasing_by
  · rw [List.length_drop]; omega
  · rw [List.length_drop]; omega

variable (k starts) in
/-- The grammar of the sequences on which dropping more does no harm: a short tail,
a window in front, or a place without a window, where no window starts at the
elements dropped besides. -/
inductive InStep (extra : List α → ℕ) : List α → Prop
  | tail {data} : data.length < k → InStep extra data
  | window {data} : k ≤ data.length → starts (data.take k) = true →
      InStep extra (data.drop k) → InStep extra data
  | skip {data} : k ≤ data.length → starts (data.take k) = false →
      (∀ i < extra data, k ≤ (data.drop (i + 1)).length →
        starts ((data.drop (i + 1)).take k) = false) →
      InStep extra (data.drop (extra data + 1)) → InStep extra data

variable {extra : List α → ℕ}

theorem scanBy_short {pos : ℕ} {data : List α} (h : data.length < k) :
    scanBy k starts extra pos data = [] := by
  rw [scanBy, dif_neg (Nat.not_le.mpr h)]

theorem scanBy_window {pos : ℕ} {data : List α} (hlen : k ≤ data.length)
    (hs : starts (data.take k) = true) :
    scanBy k starts extra pos data
      = (pos, data.take k) :: scanBy k starts extra (pos + k) (data.drop k) := by
  rw [scanBy, dif_pos hlen, if_pos hs]

theorem scanBy_skip {pos : ℕ} {data : List α} (hlen : k ≤ data.length)
    (hs : starts (data.take k) = false) :
    scanBy k starts extra pos data
      = scanBy k starts extra (pos + (extra data + 1)) (data.drop (extra data + 1)) := by
  rw [scanBy, dif_pos hlen, if_neg (by rw [hs]; exact Bool.false_ne_true)]

variable (k starts extra) in
/-- Case analysis on what `scanBy` does at the head. -/
@[elab_as_elim]
theorem scanBy_induction {P : ℕ → List α → Prop}
    (short : ∀ pos data, data.length < k → P pos data)
    (window : ∀ pos data, k ≤ data.length → starts (data.take k) = true →
      P (pos + k) (data.drop k) → P pos data)
    (skip : ∀ pos data, k ≤ data.length → starts (data.take k) = false →
      P (pos + (extra data + 1)) (data.drop (extra data + 1)) → P pos data)
    (pos : ℕ) (data : List α) : P pos data := by
  induction hn : data.length using Nat.strong_induction_on generalizing pos data with
  | _ n ih =>
    subst hn
    have hk := NeZero.pos k
    by_cases hlen : k ≤ data.length
    · cases hs : starts (data.take k) with
      | true =>
        exact window pos data hlen hs
          (ih (data.drop k).length (by rw [List.length_drop]; omega) _ _ rfl)
      | false =>
        exact skip pos data hlen hs (ih _ (by rw [List.length_drop]; omega) _ _ rfl)
    · exact short pos data (Nat.not_le.mp hlen)

/-- It finds nothing in front of where it starts. -/
theorem le_of_mem_scanBy {pos : ℕ} {data : List α} {c : ℕ × List α} :
    c ∈ scanBy k starts extra pos data → pos ≤ c.1 := by
  induction pos, data using scanBy_induction k starts extra with
  | short pos data hlt =>
    rw [scanBy_short hlt]
    exact fun h => absurd h List.not_mem_nil
  | window pos data hlen hs ih =>
    rw [scanBy_window hlen hs, List.mem_cons]
    rintro (rfl | h)
    · exact le_rfl
    · exact (Nat.le_add_right _ _).trans (ih h)
  | skip pos data hlen hs ih =>
    rw [scanBy_skip hlen hs]
    exact fun h => (Nat.le_add_right _ _).trans (ih h)

/-- Elements at which no window starts are passed over. -/
theorem scan_drop {n : ℕ} :
    ∀ {pos : ℕ} {data : List α},
      (∀ i < n, k ≤ (data.drop i).length → starts ((data.drop i).take k) = false) →
      scan k starts pos data = scan k starts (pos + n) (data.drop n) := by
  induction n with
  | zero => exact fun _ => rfl
  | succ n ih =>
    intro pos data hno
    cases data with
    | nil =>
      have hk : ([] : List α).length < k := NeZero.pos k
      rw [List.drop_nil, scan_short hk, scan_short hk]
    | cons b rest =>
      have h0 := hno 0 (Nat.succ_pos n)
      rw [List.drop_zero] at h0
      rw [scan_skip fun h => by rw [h0 h.1] at h; exact Bool.false_ne_true h.2,
        ih fun i hi => hno (i + 1) (Nat.succ_lt_succ hi),
        List.drop_succ_cons, Nat.add_assoc, Nat.add_comm 1 n]

/-- Where no window starts at an element dropped unseen, the reference scanner drops
the same elements, one by one. -/
theorem scan_skip_extra {pos : ℕ} {data : List α} (hs : starts (data.take k) = false)
    (hno : ∀ i < extra data, k ≤ (data.drop (i + 1)).length →
      starts ((data.drop (i + 1)).take k) = false) :
    scan k starts pos data
      = scan k starts (pos + (extra data + 1)) (data.drop (extra data + 1)) := by
  refine scan_drop fun i hi => ?_
  cases i with
  | zero => exact fun _ => hs
  | succ i => exact hno i (Nat.lt_of_succ_lt_succ hi)

/-- Where a window starts, one has been taken there or before. -/
theorem exists_mem_scan_le {i : ℕ} :
    ∀ {pos : ℕ} {data : List α}, k ≤ (data.drop i).length →
      starts ((data.drop i).take k) = true →
      ∃ c ∈ scan k starts pos data, c.1 ≤ pos + i := by
  induction i with
  | zero =>
    intro pos data hlen hs
    rw [List.drop_zero] at hlen hs
    rw [scan_window hlen hs]
    exact ⟨_, List.mem_cons_self, le_rfl⟩
  | succ i ih =>
    intro pos data hlen hs
    by_cases h0 : k ≤ data.length ∧ starts (data.take k) = true
    · rw [scan_window h0.1 h0.2]
      exact ⟨_, List.mem_cons_self, Nat.le_add_right _ _⟩
    · cases data with
      | nil => exact absurd hlen (Nat.not_le.mpr (NeZero.pos k))
      | cons b rest =>
        obtain ⟨c, hc, hle⟩ := @ih (pos + 1) rest hlen hs
        rw [scan_skip h0]
        exact ⟨c, hc, by omega⟩

/-- Where no window starts at an element dropped unseen, both scanners find the same. -/
theorem InStep.scanBy_eq_scan {data : List α} (h : InStep k starts extra data) :
    ∀ pos, scanBy k starts extra pos data = scan k starts pos data := by
  induction h with
  | tail hlt =>
    intro pos
    rw [scanBy_short hlt, scan_short hlt]
  | window hlen hs _ ih =>
    intro pos
    rw [scanBy_window hlen hs, scan_window hlen hs, ih]
  | @skip data hlen hs hno _ ih =>
    intro pos
    rw [scanBy_skip hlen hs, scan_skip_extra hs hno, ih]

/-- **Both scanners find windows at the same places** iff no window starts at an
element that is dropped unseen. -/
theorem map_fst_scanBy_eq_iff (pos : ℕ) (data : List α) :
    (scanBy k starts extra pos data).map Prod.fst = (scan k starts pos data).map Prod.fst ↔
      InStep k starts extra data := by
  refine ⟨?_, fun h => by rw [h.scanBy_eq_scan]⟩
  induction pos, data using scanBy_induction k starts extra with
  | short pos data hlt => exact fun _ => .tail hlt
  | window pos data hlen hs ih =>
    rw [scanBy_window hlen hs, scan_window hlen hs, List.map_cons, List.map_cons,
      List.cons_inj_right]
    exact fun h => .window hlen hs (ih h)
  | skip pos data hlen hs ih =>
    rw [scanBy_skip hlen hs]
    intro heq
    have hno : ∀ i < extra data, k ≤ (data.drop (i + 1)).length →
        starts ((data.drop (i + 1)).take k) = false := by
      -- a window passed over would be found by the reference scanner only
      refine fun i hi hlen' => Bool.eq_false_iff.mpr fun hs' => ?_
      obtain ⟨c, hc, hle⟩ := @exists_mem_scan_le _ k _ starts _ pos data hlen' hs'
      obtain ⟨c', hc', hcc'⟩ := List.mem_map.mp (heq ▸ List.mem_map_of_mem hc)
      have hge := le_of_mem_scanBy hc'
      omega
    exact .skip hlen hs hno (ih (by rw [heq, scan_skip_extra hs hno]))

/-! ### A sequence delivered in pieces -/

variable (k starts) in
/-- What `scanBy` leaves: fewer than `k` elements. -/
def restBy (extra : List α → ℕ) (data : List α) : List α :=
  if h : k ≤ data.length then
    have _hk : 0 < k := NeZero.pos k
    if starts (data.take k) = true then restBy extra (data.drop k)
    else restBy extra (data.drop (extra data + 1))
  else data
termination_by data.length
decreasing_by
  · rw [List.length_drop]; omega
  · rw [List.length_drop]; omega

theorem restBy_short {data : List α} (h : data.length < k) :
    restBy k starts extra data = data := by
  rw [restBy, dif_neg (Nat.not_le.mpr h)]

theorem restBy_window {data : List α} (hlen : k ≤ data.length)
    (hs : starts (data.take k) = true) :
    restBy k starts extra data = restBy k starts extra (data.drop k) := by
  rw [restBy, dif_pos hlen, if_pos hs]

theorem restBy_skip {data : List α} (hlen : k ≤ data.length)
    (hs : starts (data.take k) = false) :
    restBy k starts extra data = restBy k starts extra (data.drop (extra data + 1)) := by
  rw [restBy, dif_pos hlen, if_neg (by rw [hs]; exact Bool.false_ne_true)]

theorem length_restBy_lt (data : List α) : (restBy k starts extra data).length < k := by
  -- `restBy` has no position; any will do for the induction
  induction (0 : ℕ), data using scanBy_induction k starts extra with
  | short _ data hlt => rwa [restBy_short hlt]
  | window _ data hlen hs ih => rwa [restBy_window hlen hs]
  | skip _ data hlen hs ih => rwa [restBy_skip hlen hs]

variable (k extra) in
/-- What is dropped is decided by the `k` elements in front, and lies among them. -/
structure Local : Prop where
  lt : ∀ data, extra data < k
  append : ∀ data more, k ≤ data.length → extra (data ++ more) = extra data

/-- Where the sequence begins does not matter for what is found. -/
theorem map_snd_scanBy (pos pos' : ℕ) (data : List α) :
    (scanBy k starts extra pos data).map Prod.snd
      = (scanBy k starts extra pos' data).map Prod.snd := by
  induction pos, data using scanBy_induction k starts extra generalizing pos' with
  | short pos data hlt => rw [scanBy_short hlt, scanBy_short hlt]
  | window pos data hlen hs ih =>
    rw [scanBy_window hlen hs, scanBy_window hlen hs, List.map_cons, List.map_cons, ih]
  | skip pos data hlen hs ih =>
    rw [scanBy_skip hlen hs, scanBy_skip hlen hs, ih]

/-- **Resumption.**  What is found in the first part of a sequence stands, and the scan
goes on from what that part left. -/
theorem scanBy_append (hloc : Local k extra) (pos : ℕ) (data more : List α) :
    (scanBy k starts extra pos (data ++ more)).map Prod.snd
        = (scanBy k starts extra pos data).map Prod.snd
          ++ (scanBy k starts extra pos (restBy k starts extra data ++ more)).map Prod.snd ∧
      restBy k starts extra (data ++ more)
        = restBy k starts extra (restBy k starts extra data ++ more) := by
  induction pos, data using scanBy_induction k starts extra with
  | short pos data hlt =>
    rw [scanBy_short hlt, restBy_short hlt]
    exact ⟨rfl, rfl⟩
  | window pos data hlen hs ih =>
    have hlen' : k ≤ (data ++ more).length :=
      hlen.trans (List.sublist_append_left data more).length_le
    have htake : (data ++ more).take k = data.take k := List.take_append_of_le_length hlen
    have hdrop : (data ++ more).drop k = data.drop k ++ more := List.drop_append_of_le_length hlen
    have hs' : starts ((data ++ more).take k) = true := by rw [htake, hs]
    rw [scanBy_window hlen' hs', scanBy_window hlen hs, restBy_window hlen' hs', restBy_window hlen hs,
      htake, hdrop, List.map_cons, List.map_cons, ih.1, List.cons_append]
    exact ⟨by rw [map_snd_scanBy (pos + k) pos (_ ++ more)], ih.2⟩
  | skip pos data hlen hs ih =>
    have hlen' : k ≤ (data ++ more).length :=
      hlen.trans (List.sublist_append_left data more).length_le
    have htake : (data ++ more).take k = data.take k := List.take_append_of_le_length hlen
    -- what is dropped lies in the first part
    have hdrop : (data ++ more).drop (extra data + 1) = data.drop (extra data + 1) ++ more :=
      List.drop_append_of_le_length ((hloc.lt data).trans_le hlen)
    have hs' : starts ((data ++ more).take k) = false := by rw [htake, hs]
    rw [scanBy_skip hlen' hs', scanBy_skip hlen hs, restBy_skip hlen' hs', restBy_skip hlen hs,
      hloc.append data more hlen, hdrop, ih.1]
    exact ⟨by rw [map_snd_scanBy _ pos (_ ++ more)], ih.2⟩

/-! ### A stream of windows delivered in pieces -/

omit [NeZero k] in
/-- A prefix of a concatenation of blocks of length `k` that is a multiple of `k`
long is the concatenation of the first blocks. -/
theorem take_flatten {ws : List (List α)} (hws : ∀ w ∈ ws, w.length = k) :
    ∀ n, ws.flatten.take (k * n) = (ws.take n).flatten := by
  induction ws with
  | nil => intro n; simp
  | cons w ws ih =>
    intro n
    cases n with
    | zero => simp
    | succ n =>
      have hlen : w.length = k := hws w List.mem_cons_self
      have hsplit : k * (n + 1) = w.length + k * n := by rw [hlen]; ring
      rw [List.take_succ_cons, List.flatten_cons, List.flatten_cons, hsplit, List.take_length_add_append,
        ih fun v hv => hws v (List.mem_cons_of_mem w hv)]

variable (k starts) in
/-- The windows found when every piece is clipped to `cap` elements and scanned
on its own. -/
def piecewise (cap : ℕ) (pieces : List (List α)) : List (List α) :=
  pieces.flatMap fun d => (scan k starts 0 (d.take cap)).map Prod.snd

@[simp] theorem piecewise_nil (cap : ℕ) : piecewise k starts cap [] = [] := rfl

theorem piecewise_cons (cap : ℕ) (d : List α) (pieces : List (List α)) :
    piecewise k starts cap (d :: pieces)
      = (scan k starts 0 (d.take cap)).map Prod.snd ++ piecewise k starts cap pieces := rfl

/-- Pieces that fit and hold whole windows lose nothing. -/
theorem piecewise_eq {cap : ℕ} {pieces : List (List α)} :
    ∀ {ws : List (List α)}, (∀ w ∈ ws, w.length = k ∧ starts w = true) →
      pieces.flatten = ws.flatten → (∀ d ∈ pieces, k ∣ d.length ∧ d.length ≤ cap) →
      piecewise k starts cap pieces = ws := by
  induction pieces with
  | nil =>
    intro ws hws hflat _
    cases ws with
    | nil => rfl
    | cons w ws =>
      -- a window of length `k > 0` cannot come out of the empty stream
      have hnil := congrArg List.length hflat
      have hw : w.length = k := (hws w List.mem_cons_self).1
      simp only [List.flatten_nil, List.length_nil, List.flatten_cons, List.length_append] at hnil
      exact absurd (NeZero.pos k) (by omega)
  | cons d pieces ih =>
    intro ws hws hflat hd
    obtain ⟨⟨n, hn⟩, hcap⟩ := hd d List.mem_cons_self
    have hws' : ∀ w ∈ ws, w.length = k := fun w hw => (hws w hw).1
    have hhead : d = (ws.take n).flatten := by
      rw [← take_flatten hws' n, ← hflat, List.flatten_cons, ← hn, List.take_left]
    have hsplit : ws.flatten = (ws.take n).flatten ++ (ws.drop n).flatten := by
      rw [← List.flatten_append, List.take_append_drop]
    have htail : pieces.flatten = (ws.drop n).flatten := by
      rw [List.flatten_cons, hsplit, ← hhead] at hflat
      exact List.append_cancel_left hflat
    have hrest := ih (fun w hw => hws w (List.mem_of_mem_drop hw)) htail
      (fun e he => hd e (List.mem_cons_of_mem d he))
    have hfirst : (scan k starts 0 (d.take cap)).map Prod.snd = ws.take n := by
      rw [List.take_of_length_le hcap, hhead]
      exact scan_blocks (fun w hw => hws w (List.mem_of_mem_take hw)) 0
    calc piecewise k starts cap (d :: pieces)
        = (scan k starts 0 (d.take cap)).map Prod.snd ++ piecewise k starts cap pieces :=
          piecewise_cons cap d pieces
      _ = ws.take n ++ ws.drop n := by rw [hfirst, hrest]
      _ = ws := List.take_append_drop n ws

variable (starts) in
/-- If the windows found are as many as the stream holds, every piece fits and
holds whole windows: a piece of length `m` yields at most `min m cap / k`. -/
theorem dvd_of_length_piecewise {cap : ℕ} {pieces : List (List α)}
    (h : k * (piecewise k starts cap pieces).length = pieces.flatten.length) :
    ∀ d ∈ pieces, k ∣ d.length ∧ d.length ≤ cap := by
  have hle : ∀ d : List α,
      k * ((scan k starts 0 (d.take cap)).map Prod.snd).length ≤ min cap d.length := by
    intro d
    rw [List.length_map, ← List.length_take]
    exact mul_length_scan_le 0 (d.take cap)
  have hsum : (pieces.map fun d => k * ((scan k starts 0 (d.take cap)).map Prod.snd).length).sum
      = (pieces.map List.length).sum := by
    rw [List.sum_map_mul_left, ← List.length_flatten, ← h, piecewise, List.length_flatMap]
  intro d hd
  -- a piece that yields less cannot be made up for by another
  have heq : k * ((scan k starts 0 (d.take cap)).map Prod.snd).length = d.length := by
    by_contra hne
    have hlt := List.sum_lt_sum (l := pieces)
      (fun d => k * ((scan k starts 0 (d.take cap)).map Prod.snd).length) List.length
      (fun e _ => (hle e).trans (Nat.min_le_right _ _))
      ⟨d, hd, lt_of_le_of_ne ((hle d).trans (Nat.min_le_right _ _)) hne⟩
    omega
  exact ⟨⟨_, heq.symm⟩, heq ▸ (hle d).trans (Nat.min_le_left _ _)⟩

omit [NeZero k] in
/-- The length of a concatenation of blocks. -/
theorem length_flatten_blocks {ws : List (List α)} (hws : ∀ w ∈ ws, w.length = k) :
    ws.flatten.length = k * ws.length := by
  rw [List.length_flatten, List.map_congr_left hws, List.map_const', List.sum_replicate, smul_eq_mul,
    Nat.mul_comm]

end Windows
