/-
Start01/NetRestore.lean

The key that resets the network configuration: `NetConfig_Restore_Check` of testsuite.c and
`network_restore_def` of network.c.

The key is polled.  `cnt_net_restore` counts the samples that differ from the level sampled at
start-up; at five the defaults are stored and the device stops in `while(1)`, where the watchdog
restarts it.  No sample clears the counter, so it counts all samples that differ since start-up,
not those in a row (`KeyRun.Sound`): the configuration is reset as it is to be iff the fifth
sample that differs comes directly behind four others (`checksRight_iff`).
-/
import Start01.Lib.Run
import Start01.Persist
import Mathlib.Data.List.DropRight

namespace Start01

open Run

/-! ### The defaults -/

/-- `htonl(n)` of inet.c. -/
def htonl (n : UInt32) : UInt32 :=
  ((n &&& 0xff) <<< 24) ||| ((n &&& 0xff00) <<< 8) ||| ((n &&& 0xff0000) >>> 8) |||
    ((n &&& 0xff000000) >>> 24)

/-- `BUILD_IP(a, b, c, d)`. -/
def buildIp (a b c d : UInt32) : UInt32 :=
  htonl (((a &&& 0xff) <<< 24) ||| ((b &&& 0xff) <<< 16) ||| ((c &&& 0xff) <<< 8) ||| (d &&& 0xff))

/-- `IP_ADDR0` … `IP_ADDR3`. -/
def ipAddr : UInt32 := buildIp 192 168 50 14

/-- `NETMASK_ADDR0` … `NETMASK_ADDR3`. -/
def netmaskAddr : UInt32 := buildIp 255 255 255 0

/-- `GW_ADDR0` … `GW_ADDR3`. -/
def gwAddr : UInt32 := buildIp 192 168 50 1

/-- `network_restore_def()`, with `fm25l16Dev` for the answer of `Param_dev_Request`. -/
def networkRestoreDef (fm25l16Dev : Option Addr) (p : ParamCfg) : ParamCfg :=
  let p := (paramWriteInteger p fm25l16Dev TCmdType.localIp.offset ipAddr).2
  let p := (paramWriteInteger p fm25l16Dev TCmdType.netmask.offset netmaskAddr).2
  (paramWriteInteger p fm25l16Dev TCmdType.gateway.offset gwAddr).2

/-- The stored configuration is the default one. -/
structure NetDefaults (p : ParamCfg) (F : Addr) : Prop where
  ip : framWord p F .localIp = ipAddr
  netmask : framWord p F .netmask = netmaskAddr
  gateway : framWord p F .gateway = gwAddr

/-! ### The check -/

/-- The variables of the check, and the registry it stores the defaults through. -/
structure RestoreKey where
  oldStatus : Int32
  cntNetRestore : UInt8
  /-- In `while(1)`. -/
  stopped : Bool
  pcfg : ParamCfg

/-- As `test_suite_init` leaves them, the key being at `level`. -/
def RestoreKey.init (p : ParamCfg) (level : Int32) : RestoreKey where
  oldStatus := level
  cntNetRestore := 0
  stopped := false
  pcfg := p

section Check

variable (fm25l16Dev : Option Addr)

/-- `NetConfig_Restore_Check()`, where the key is at `value`, and at `again` when it is read a
second time. -/
def netConfigRestoreCheck (k : RestoreKey) (value again : Int32) : RestoreKey :=
  if value ≠ k.oldStatus then
    let cnt := k.cntNetRestore + 1
    if cnt ≥ 5 then
      { oldStatus := again
        cntNetRestore := 0
        stopped := true
        pcfg := networkRestoreDef fm25l16Dev k.pcfg }
    else { k with cntNetRestore := cnt }
  else k

/-- The two readings of a poll. -/
structure KeyPoll where
  value : Int32
  again : Int32

/-- The check, with the samples it has seen. -/
structure KeyRun where
  key : RestoreKey
  /-- Ghost: the newest sample first. -/
  samples : List Int32

/-- A poll: the samples so far, the newest first, and the configuration before and after it. -/
structure KeyCheck where
  samples : List Int32
  before : ParamCfg
  after : ParamCfg
  /-- `network_restore_def` has been called. -/
  restored : Bool

/-- A poll as a step.  A device that has stopped polls no more. -/
def keyStep (s : KeyRun) (poll : KeyPoll) : KeyRun × List KeyCheck :=
  if s.key.stopped then (s, [])
  else
    let key := netConfigRestoreCheck fm25l16Dev s.key poll.value poll.again
    let samples := poll.value :: s.samples
    (⟨key, samples⟩, [⟨samples, s.key.pcfg, key.pcfg, key.stopped⟩])

/-! ### What is asked -/

/-- The five newest samples differ from the level. -/
def FiveInARow (level : Int32) (samples : List Int32) : Prop :=
  5 ≤ samples.length ∧ ∀ v ∈ samples.take 5, v ≠ level

/-- The configuration is reset to its defaults exactly when five samples in a row differ, and is
left alone otherwise. -/
structure KeyCheck.Right (level : Int32) (e : KeyCheck) : Prop where
  iff : e.restored = true ↔ FiveInARow level e.samples
  defaults : e.restored = true → ∀ F q, fm25l16Dev = some F →
    e.before.devs F = { fm25l16Device with next := q } → NetDefaults e.after F
  kept : e.restored = false → e.after = e.before

/-- The fifth sample that differs, if there is one, comes directly behind four that differ. -/
def FifthInARow (level : Int32) (samples : List Int32) : Prop :=
  ∀ pre v post, samples = pre ++ v :: post → v ≠ level → pre.countP (· ≠ level) = 4 →
    ∀ w ∈ pre.rtake 4, w ≠ level

end Check

/-! ### Storing the defaults -/

section Store

variable {p : ParamCfg} {F : Addr}

theorem paramWriteInteger_snd (p : ParamCfg) (dev : Option Addr) (off : ℤ) (x : UInt32) :
    ∃ cells, (paramWriteInteger p dev off x).2 = { p with cells := cells } :=
  onDevice_snd _ _ _

@[simp] theorem devs_paramWriteInteger (dev : Option Addr) (off : ℤ) (x : UInt32) :
    (paramWriteInteger p dev off x).2.devs = p.devs := by
  obtain ⟨cells, h⟩ := paramWriteInteger_snd p dev off x
  rw [h]

/-- A word of a variable is stored, and the words of the others are kept. -/
theorem framWord_paramWriteInteger {q : Option Addr}
    (hF : p.devs F = { fm25l16Device with next := q }) (v w : PersistedVar) (x : UInt32) :
    framWord (paramWriteInteger p (some F) v.cmd.offset x).2 F w =
      if w = v then x else framWord p F w := by
  have hcells : (paramWriteInteger p (some F) v.cmd.offset x).2.cells F =
      fm25l16bWriteDataLen (p.cells F) v.cmd.offset (leByte x) 4 := by
    simp [paramWriteInteger, ParamCfg.onDevice, hF, fm25l16Device]
  rw [framWord, hcells]
  split_ifs with hw
  · rw [hw, wordAt_fm25l16bWriteDataLen v.cmd.offset_le, ofLe_leByte]
  · exact wordAt_fm25l16bWriteDataLen_of_disjoint v.cmd.offset_le
      (PersistedVar.offset_disjoint (Ne.symm hw))

/-- **`network_restore_def`** stores the defaults, each in the word of its command. -/
theorem networkRestoreDef_defaults {q : Option Addr}
    (hF : p.devs F = { fm25l16Device with next := q }) :
    NetDefaults (networkRestoreDef (some F) p) F := by
  -- the device is the same before each of the three writes
  have hword : ∀ w, framWord (networkRestoreDef (some F) p) F w =
      if w = .gateway then gwAddr else if w = .netmask then netmaskAddr
        else if w = .localIp then ipAddr else framWord p F w := by
    intro w
    show framWord (paramWriteInteger (paramWriteInteger (paramWriteInteger p (some F)
      PersistedVar.localIp.cmd.offset _).2 (some F) PersistedVar.netmask.cmd.offset _).2 (some F)
      PersistedVar.gateway.cmd.offset _).2 F w = _
    rw [framWord_paramWriteInteger (q := q) (by simpa using hF),
      framWord_paramWriteInteger (q := q) (by simpa using hF), framWord_paramWriteInteger hF]
  exact ⟨hword _, hword _, hword _⟩

end Store

/-! ### The counter -/

section Counter

variable (fm25l16Dev : Option Addr) {level : Int32}

/-- Until the device stops, the counter holds the number of all samples that differ. -/
structure KeyRun.Sound (level : Int32) (s : KeyRun) : Prop where
  status : s.key.stopped = false → s.key.oldStatus = level
  count : s.key.stopped = false → s.key.cntNetRestore.toNat = s.samples.countP (· ≠ level)
  below : s.key.stopped = false → s.samples.countP (· ≠ level) < 5

theorem KeyRun.Sound.of_stopped {s : KeyRun} (h : s.key.stopped = true) : s.Sound level := by
  have hrun : s.key.stopped ≠ false := by rw [h]; exact nofun
  exact ⟨fun hr => absurd hr hrun, fun hr => absurd hr hrun, fun hr => absurd hr hrun⟩

/-- What a poll does: nothing, one more in the counter, or the reset. -/
theorem netConfigRestoreCheck_cases {s : KeyRun} (h : s.Sound level)
    (hrun : s.key.stopped = false) (poll : KeyPoll) :
    let k := netConfigRestoreCheck fm25l16Dev s.key poll.value poll.again
    let n := (poll.value :: s.samples).countP (· ≠ level)
    (n < 5 ∧ k.stopped = false ∧ k.oldStatus = level ∧ k.cntNetRestore.toNat = n ∧
      k.pcfg = s.key.pcfg) ∨
    (n = 5 ∧ k.stopped = true ∧ k.pcfg = networkRestoreDef fm25l16Dev s.key.pcfg) := by
  have hstatus := h.status hrun
  have hcount := h.count hrun
  have hbelow := h.below hrun
  intro k n
  by_cases hv : poll.value = level
  · -- the sample is the level's, and nothing happens to the counter
    have hk : k = s.key := by
      show netConfigRestoreCheck fm25l16Dev s.key poll.value poll.again = s.key
      rw [netConfigRestoreCheck, if_neg (not_not.mpr (hv.trans hstatus.symm))]
    have hn : n = s.samples.countP (· ≠ level) := List.countP_cons_of_neg (by simpa using hv)
    exact .inl ⟨hn ▸ hbelow, hk ▸ hrun, hk ▸ hstatus, by rw [hk, hcount, hn], by rw [hk]⟩
  · have hn : n = s.samples.countP (· ≠ level) + 1 := List.countP_cons_of_pos (by simpa using hv)
    have hne : poll.value ≠ s.key.oldStatus := hstatus ▸ hv
    have hsucc : (s.key.cntNetRestore + 1).toNat = n := by
      have hone : (1 : UInt8).toNat = 1 := rfl
      rw [UInt8.toNat_add, hone, hcount, hn]
      omega
    have hfive : s.key.cntNetRestore + 1 ≥ 5 ↔ 5 ≤ n := by
      rw [ge_iff_le, UInt8.le_iff_toNat_le, hsucc]
      rfl
    by_cases h5 : 5 ≤ n
    · have hk : k = ⟨poll.again, 0, true, networkRestoreDef fm25l16Dev s.key.pcfg⟩ := by
        show netConfigRestoreCheck fm25l16Dev s.key poll.value poll.again = _
        simp only [netConfigRestoreCheck, if_pos hne, if_pos (hfive.mpr h5)]
      exact .inr ⟨by omega, by rw [hk], by rw [hk]⟩
    · have hk : k = { s.key with cntNetRestore := s.key.cntNetRestore + 1 } := by
        show netConfigRestoreCheck fm25l16Dev s.key poll.value poll.again = _
        simp only [netConfigRestoreCheck, if_pos hne, if_neg (fun hc => h5 (hfive.mp hc))]
      refine .inl ⟨by omega, ?_, ?_, ?_, ?_⟩ <;> rw [hk]
      · exact hrun
      · exact hstatus
      · exact hsucc

/-- Five in a row are five. -/
theorem FiveInARow.le_countP {samples : List Int32} (h : FiveInARow level samples) :
    5 ≤ samples.countP (· ≠ level) := by
  have hlen : (samples.take 5).length = 5 := List.length_take_of_le h.1
  have hall : (samples.take 5).countP (· ≠ level) = (samples.take 5).length :=
    List.countP_eq_length.mpr fun v hv => decide_eq_true (h.2 v hv)
  have hle := (List.take_sublist 5 samples).countP_le (p := (· ≠ level))
  omega

/-- A poll of a device that has not stopped. -/
theorem keyStep_of_running {s : KeyRun} (hrun : s.key.stopped = false) (poll : KeyPoll) :
    keyStep fm25l16Dev s poll =
      let key := netConfigRestoreCheck fm25l16Dev s.key poll.value poll.again
      let samples := poll.value :: s.samples
      (⟨key, samples⟩, [⟨samples, s.key.pcfg, key.pcfg, key.stopped⟩]) := by
  rw [keyStep, if_neg (by rw [hrun]; exact nofun)]

theorem trace_stopped {s : KeyRun} (hstop : s.key.stopped = true) (polls : List KeyPoll) :
    trace (keyStep fm25l16Dev) s polls = (s, []) := by
  induction polls with
  | nil => rfl
  | cons poll polls ih => rw [trace, keyStep, if_pos hstop, ih, List.nil_append]

/-- **Step.**  A poll keeps the counter right. -/
theorem KeyRun.Sound.step {s : KeyRun} (h : s.Sound level) (poll : KeyPoll) :
    (keyStep fm25l16Dev s poll).1.Sound level := by
  cases hstop : s.key.stopped with
  | true =>
    rw [keyStep, if_pos hstop]
    exact h
  | false =>
    rw [keyStep_of_running fm25l16Dev hstop]
    rcases netConfigRestoreCheck_cases fm25l16Dev h hstop poll with
      ⟨hn, -, hstatus, hcount, -⟩ | ⟨-, hstop', -⟩
    · exact ⟨fun _ => hstatus, fun _ => hcount, fun _ => hn⟩
    · exact .of_stopped hstop'

/-- A poll is as it is to be iff the fifth sample that differs, if it is that, makes five in a
row. -/
theorem KeyRun.Sound.right_iff {s : KeyRun} (h : s.Sound level) (poll : KeyPoll) :
    (∀ e ∈ (keyStep fm25l16Dev s poll).2, e.Right fm25l16Dev level) ↔
      ∀ e ∈ (keyStep fm25l16Dev s poll).2,
        e.samples.countP (· ≠ level) = 5 → FiveInARow level e.samples := by
  cases hstop : s.key.stopped with
  | true => simp only [keyStep, if_pos hstop, List.not_mem_nil, false_imp_iff, implies_true]
  | false =>
    rw [keyStep_of_running fm25l16Dev hstop, List.forall_mem_singleton, List.forall_mem_singleton]
    rcases netConfigRestoreCheck_cases fm25l16Dev h hstop poll with
      ⟨hn, hrun', -, -, hpcfg⟩ | ⟨hn, hstop', hpcfg⟩
    · -- fewer than five differ: nothing is stored, and nothing was to be
      refine iff_of_true ⟨?_, fun hr => ?_, fun _ => hpcfg⟩ fun h5 => absurd h5 hn.ne
      · rw [hrun']
        exact ⟨nofun, fun hfive => absurd hfive.le_countP (not_le.mpr hn)⟩
      · rw [hrun'] at hr
        cases hr
    · constructor
      · exact fun hright _ => hright.iff.mp hstop'
      · refine fun hfive => ⟨iff_of_true hstop' (hfive hn), fun _ F q hdev hF => ?_, fun hr => ?_⟩
        · rw [hpcfg, hdev]
          exact networkRestoreDef_defaults hF
        · rw [hstop'] at hr
          cases hr

/-! ### All polls -/

/-- As long as fewer than five differ, there is no fifth. -/
theorem fifthInARow_of_lt {samples : List Int32} (h : samples.countP (· ≠ level) < 5) :
    FifthInARow level samples := by
  rintro pre v post rfl hv hpre
  rw [List.countP_append, List.countP_cons_of_pos (by simpa using hv)] at h
  omega

/-- Behind four that differ, and with `past` the newest first, the fifth is the sample `v`. -/
theorem fifthInARow_iff {past rest : List Int32} {v : Int32}
    (hpast : past.countP (· ≠ level) = 4) (hv : v ≠ level) :
    FifthInARow level (past.reverse ++ v :: rest) ↔ FiveInARow level (v :: past) := by
  have hrev : past.reverse.rtake 4 = (past.take 4).reverse := by
    rw [List.rtake_eq_reverse_take_reverse, List.reverse_reverse]
  have hcount : past.reverse.countP (· ≠ level) = 4 := by rw [List.countP_reverse, hpast]
  have hfour : (∀ w ∈ past.reverse.rtake 4, w ≠ level) ↔ FiveInARow level (v :: past) := by
    have hlen := List.countP_le_length (p := (· ≠ level)) (l := past)
    rw [hrev, FiveInARow, List.take_succ_cons, List.forall_mem_cons, List.length_cons]
    simp only [List.mem_reverse]
    exact ⟨fun h => ⟨by omega, hv, h⟩, fun h => h.2.2⟩
  rw [← hfour]
  refine ⟨fun h => h _ v rest rfl hv hcount, fun h pre w post heq hw hpre => ?_⟩
  -- a split at another place has more, or fewer, that differ before it
  obtain rfl : pre = past.reverse := by
    obtain ⟨mid, rfl, hmid⟩ | ⟨mid, hmid', hmid⟩ := List.append_eq_append_iff.mp heq
    · cases mid with
      | nil => exact List.append_nil _
      | cons u mid =>
        obtain ⟨rfl, -⟩ := List.cons.inj hmid
        rw [List.countP_append, List.countP_cons_of_pos (by simpa using hv)] at hpre
        omega
    · cases mid with
      | nil => exact (hmid'.trans (List.append_nil _)).symm
      | cons u mid =>
        obtain ⟨rfl, -⟩ := List.cons.inj hmid
        rw [hmid', List.countP_append, List.countP_cons_of_pos (by simpa using hw)] at hcount
        omega
  exact h

/-- **Run.**  The poll at which the counter is full is the fifth sample that differs. -/
theorem checks_iff (polls : List KeyPoll) :
    ∀ {s : KeyRun}, s.Sound level → s.key.stopped = false →
      ((∀ e ∈ (trace (keyStep fm25l16Dev) s polls).2,
          e.samples.countP (· ≠ level) = 5 → FiveInARow level e.samples) ↔
        FifthInARow level (s.samples.reverse ++ polls.map KeyPoll.value)) := by
  induction polls with
  | nil =>
    intro s h hrun
    refine iff_of_true (fun e he => by cases he) (fifthInARow_of_lt ?_)
    rw [List.map_nil, List.append_nil, List.countP_reverse]
    exact h.below hrun
  | cons poll polls ih =>
    intro s h hrun
    have hnext := h.step fm25l16Dev poll
    rw [trace, List.forall_mem_append, List.map_cons]
    rw [keyStep_of_running fm25l16Dev hrun] at hnext ⊢
    rw [List.forall_mem_singleton]
    rcases netConfigRestoreCheck_cases fm25l16Dev h hrun poll with
      ⟨hn, hrun', -, -, -⟩ | ⟨hn, hstop', -⟩
    · -- not yet the fifth
      rw [ih hnext hrun', List.reverse_cons, List.append_assoc]
      exact and_iff_right fun h5 => absurd h5 hn.ne
    · -- the fifth, and the last that the device looks at
      have hbelow := h.below hrun
      have hv : poll.value ≠ level := by
        intro hv
        rw [List.countP_cons_of_neg (by simpa using hv)] at hn
        omega
      have hpast : s.samples.countP (· ≠ level) = 4 := by
        rw [List.countP_cons_of_pos (by simpa using hv)] at hn
        omega
      rw [trace_stopped fm25l16Dev hstop', fifthInARow_iff hpast hv]
      exact ⟨fun h => h.1 hn, fun hfive => ⟨fun _ => hfive, fun e he => by cases he⟩⟩

/-- **The reset.**  For every sequence of polls from start-up: each resets the configuration
exactly when five samples in a row differ from the level, iff the fifth sample that differs comes
directly behind four that differ. -/
theorem checksRight_iff (p : ParamCfg) (level : Int32) (polls : List KeyPoll) :
    (∀ e ∈ (trace (keyStep fm25l16Dev) ⟨.init p level, []⟩ polls).2, e.Right fm25l16Dev level) ↔
      FifthInARow level (polls.map KeyPoll.value) := by
  have hstart : KeyRun.Sound level ⟨.init p level, []⟩ :=
    ⟨fun _ => rfl, fun _ => rfl, fun _ => Nat.succ_pos 4⟩
  have hverdict := trace_verdict (P := KeyRun.Sound level) (R := KeyCheck.Right fm25l16Dev level)
    (fun s poll hs => ⟨hs.right_iff fm25l16Dev poll, fun _ => hs.step fm25l16Dev poll⟩)
    polls hstart
  exact hverdict.1.trans (checks_iff fm25l16Dev polls hstart rfl)

/-- Five glitches, each of one sample: the configuration is reset. -/
theorem checksRight_not_glitches :
    let polls := [⟨1, 1⟩, ⟨0, 0⟩, ⟨1, 1⟩, ⟨0, 0⟩, ⟨1, 1⟩, ⟨0, 0⟩, ⟨1, 1⟩, ⟨0, 0⟩, ⟨1, 1⟩]
    let run := trace (keyStep (some 0)) ⟨.init framOnly 0, []⟩ polls
    (¬ ∀ e ∈ run.2, e.Right (some 0) 0) ∧ NetDefaults run.1.key.pcfg 0 := by
  intro polls run
  refine ⟨fun hright => ?_, networkRestoreDef_defaults (q := none) rfl⟩
  have hlast : (⟨[1, 0, 1, 0, 1, 0, 1, 0, 1], framOnly, networkRestoreDef (some 0) framOnly, true⟩ :
      KeyCheck) ∈ run.2 := List.mem_of_getElem? (i := 8) rfl
  exact ((hright _ hlast).iff.mp rfl).2 0 (by decide) rfl

end Counter

end Start01
