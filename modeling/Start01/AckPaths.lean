/-
Start01/AckPaths.lean

Where `Cmd_Service` sends its replies.  A handler may change `*src` and the message; its
result goes to where the route function says if it returned 0, and else to the source
(`dueEvents`).

The destination is a local variable that the loop does not always set: without a route
function a handler that returns 0 is answered to where the one before it was, or to where
the message came from, wherever it has pointed `*src` (`KeepsSource`).  And of the three
places that call `AckCommMsg` the last one, for a message that is sent on, looks neither for
`CHAN_NULL` nor for a null `ack` (`acksRight_iff`).
-/
import Start01.CmdTable

namespace Start01

open Linked

/-! ### The replies there should be -/

/-- The channel for the result of a handler, and the message that the route function leaves. -/
def DebugComm.replyTo (s : DebugComm) (bypass : UInt8) (src : TDataChan) (msg : TCommMsg) :
    TDataChan × TCommMsg :=
  if bypass = 0 then s.routed src src msg else (src, msg)

/-- A reply, but not to `CHAN_NULL` and not without an `ack`. -/
def dueAck (ack : Bool) (reply : TDataChan × TCommMsg) : List Event :=
  if ack && reply.1 != chanNull then [.ack reply.1 reply.2] else []

/-- The handlers along a chain, each with the reply to its result. -/
def dueEvents (s : DebugComm) (ack : Bool) : List Addr → TDataChan → TCommMsg → List Event
  | [], _, _ => []
  | a :: l, src, msg =>
    match (s.tcmd a).func with
    | none => dueEvents s ack l src msg
    | some f =>
      let (bypass, src', msg') := f src msg
      let reply := s.replyTo bypass src' msg'
      .handler a src msg :: (dueAck ack reply ++ dueEvents s ack l src' reply.2)

/-- No reply to `CHAN_NULL`, and no call of a null `ack`. -/
def AckSafe (ev : List Event) : Prop := ∀ e ∈ ev, e ≠ .ackNull ∧ ∀ msg, e ≠ .ack chanNull msg

/-- There is a handler among the objects. -/
def DebugComm.HasHandler (s : DebugComm) (l : List Addr) : Prop :=
  ∃ a ∈ l, (s.tcmd a).func ≠ none

/-- The message is not refused at once. -/
def Sys.Accepts (s : Sys) (msg : TCommMsg) : Prop :=
  (s.comm.hasInit && guarded msg.dir msg.cmd) = true

/-- `Cmd_Service` returns, and its replies are those there should be; `l` is the chain of the
message. -/
def AcksRight (fuel : ℕ) (s : Sys) (l : List Addr) (src : TDataChan) (msg : TCommMsg)
    (ack : Bool) : Prop :=
  ∃ ret s' ev, cmdService fuel s src msg ack = some (ret, s', ev) ∧ AckSafe ev ∧
    (s.Accepts msg → s.comm.HasHandler l → ev = dueEvents s.comm ack l src msg)

/-- Each handler along a chain that returns 0 leaves `*src` as it found it. -/
def KeepsSource (s : DebugComm) : List Addr → TDataChan → TCommMsg → Prop
  | [], _, _ => True
  | a :: l, src, msg =>
    match (s.tcmd a).func with
    | none => KeepsSource s l src msg
    | some f =>
      let (bypass, src', msg') := f src msg
      (bypass = 0 → src' = src) ∧ KeepsSource s l src' (s.replyTo bypass src' msg').2

/-! ### The loop -/

variable {s : DebugComm} {ack : Bool} {l : List Addr}

/-- What the loop does along a chain, `dest` being where the last reply went. -/
def loopEvents (s : DebugComm) (ack : Bool) :
    List Addr → TDataChan → TDataChan → TCommMsg → List Event
  | [], _, _, _ => []
  | a :: l, src, dest, msg =>
    match (s.tcmd a).func with
    | none => loopEvents s ack l src dest msg
    | some f =>
      let (bypass, src', msg') := f src msg
      let reply := if bypass = 0 then s.routed src' dest msg' else (src', msg')
      .handler a src msg :: (dueAck ack reply ++ loopEvents s ack l src' reply.1 reply.2)

theorem dueAck_eq (ack : Bool) (reply : TDataChan × TCommMsg) :
    (if ack && reply.1 != chanNull then ackCommMsg reply.2 reply.1 ack else []) = dueAck ack reply := by
  unfold dueAck
  cases ack <;> rfl

theorem foldl_serveItem_events (l : List Addr) : ∀ st : SvcState,
    (l.foldl (serveItem s ack) st).events = st.events ++ loopEvents s ack l st.src st.dest st.msg := by
  induction l with
  | nil => exact fun st => (List.append_nil _).symm
  | cons a l ih =>
    intro st
    rw [List.foldl_cons, ih, loopEvents, serveItem]
    cases (s.tcmd a).func with
    | none => rfl
    | some f =>
      simp only [← dueAck_eq, List.append_assoc, List.cons_append]

theorem hasHandler_cons {a : Addr} :
    s.HasHandler (a :: l) ↔ (s.tcmd a).func ≠ none ∨ s.HasHandler l := by
  simp [DebugComm.HasHandler]

theorem foldl_serveItem_hasCmd (l : List Addr) : ∀ st : SvcState,
    (l.foldl (serveItem s ack) st).hasCmd = true ↔ st.hasCmd = true ∨ s.HasHandler l := by
  induction l with
  | nil => exact fun st => by simp [DebugComm.HasHandler]
  | cons a l ih =>
    intro st
    rw [List.foldl_cons, ih, serveItem, hasHandler_cons]
    cases (s.tcmd a).func with
    | none => simp
    | some f => simp

/-! ### The loop against the replies there should be -/

/-- A reply stands in front of the next handler, if there is one. -/
def StartsWithHandler (ev : List Event) : Prop :=
  ∀ e ∈ ev.head?, ∃ a src msg, e = .handler a src msg

theorem startsWithHandler_loopEvents (l : List Addr) :
    ∀ src dest msg, StartsWithHandler (loopEvents s ack l src dest msg) := by
  induction l with
  | nil => exact fun _ _ _ e he => by cases he
  | cons a l ih =>
    intro src dest msg
    rw [loopEvents]
    cases (s.tcmd a).func with
    | none => exact ih src dest msg
    | some f => exact fun e he => ⟨a, src, msg, (Option.some.inj he).symm⟩

theorem startsWithHandler_dueEvents (l : List Addr) :
    ∀ src msg, StartsWithHandler (dueEvents s ack l src msg) := by
  induction l with
  | nil => exact fun _ _ e he => by cases he
  | cons a l ih =>
    intro src msg
    rw [dueEvents]
    cases (s.tcmd a).func with
    | none => exact ih src msg
    | some f => exact fun e he => ⟨a, src, msg, (Option.some.inj he).symm⟩

/-- Replies with the same message, in front of the next handler, are the same if they go to the
same channel. -/
theorem dueAck_append_inj {dest dest' : TDataChan} {msg : TCommMsg} {ev ev' : List Event}
    (hev : StartsWithHandler ev) (hev' : StartsWithHandler ev') :
    dueAck true (dest, msg) ++ ev = dueAck true (dest', msg) ++ ev' ↔ dest = dest' ∧ ev = ev' := by
  have hno : ∀ {ev ev' : List Event} {dest : TDataChan}, StartsWithHandler ev →
      ev ≠ .ack dest msg :: ev' := by
    rintro ev ev' dest h rfl
    obtain ⟨a, src, m, hc⟩ := h _ rfl
    cases hc
  constructor
  · intro h
    unfold dueAck at h
    by_cases hd : dest = chanNull
    · by_cases hd' : dest' = chanNull
      · subst hd hd'
        exact ⟨rfl, h⟩
      · simp [hd, hd'] at h
        exact absurd h (hno hev)
    · by_cases hd' : dest' = chanNull
      · simp [hd, hd'] at h
        exact absurd h.symm (hno hev')
      · simpa [hd, hd'] using h
  · rintro ⟨rfl, rfl⟩
    rfl

/-- Without an `ack` there is nothing to send to a wrong place. -/
theorem loopEvents_false (l : List Addr) : ∀ src dest msg,
    loopEvents s false l src dest msg = dueEvents s false l src msg := by
  induction l with
  | nil => exact fun _ _ _ => rfl
  | cons a l ih =>
    intro src dest msg
    rw [loopEvents, dueEvents]
    cases (s.tcmd a).func with
    | none => exact ih src dest msg
    | some f =>
      rcases hres : f src msg with ⟨bypass, src', msg'⟩
      have hmsg : (if bypass = 0 then s.routed src' dest msg' else (src', msg')).2
          = (s.replyTo bypass src' msg').2 := by
        unfold DebugComm.replyTo DebugComm.routed
        split
        · cases s.routeFunc <;> rfl
        · rfl
      simp only [hres, hmsg, ih]
      rfl

/-- **The loop** sends the replies there should be if and only if, without a route function,
no handler that returns 0 changes `*src`. -/
theorem loopEvents_true_iff (l : List Addr) : ∀ {src dest : TDataChan} (msg : TCommMsg),
    (s.routeFunc = none → dest = src) →
    (loopEvents s true l src dest msg = dueEvents s true l src msg ↔
      (s.routeFunc = none → KeepsSource s l src msg)) := by
  induction l with
  | nil => exact fun _ _ => ⟨fun _ _ => trivial, fun _ => rfl⟩
  | cons a l ih =>
    intro src dest msg hdest
    rw [loopEvents, dueEvents, KeepsSource]
    cases (s.tcmd a).func with
    | none => exact ih msg hdest
    | some f =>
      rcases hres : f src msg with ⟨bypass, src', msg'⟩
      simp only [hres, List.cons.injEq, true_and]
      have hloop : ∀ src dest msg, StartsWithHandler (loopEvents s true l src dest msg) :=
        startsWithHandler_loopEvents l
      have hdue : ∀ src msg, StartsWithHandler (dueEvents s true l src msg) :=
        startsWithHandler_dueEvents l
      cases hroute : s.routeFunc with
      | some route =>
        -- the destination is set anew by every handler
        have hreply : (if bypass = 0 then s.routed src' dest msg' else (src', msg'))
            = s.replyTo bypass src' msg' := by
          rw [DebugComm.replyTo, DebugComm.routed, DebugComm.routed, hroute]
        have hset : s.routeFunc = none → (s.replyTo bypass src' msg').1 = src' := fun hc => by
          rw [hroute] at hc
          cases hc
        have hnext := ih (s.replyTo bypass src' msg').2 hset
        rw [hreply, dueAck_append_inj (hloop _ _ _) (hdue _ _), hnext, hroute]
        simp
      | none =>
        have hdest := hdest hroute
        subst hdest
        by_cases hzero : bypass = 0
        · have hkept : s.routed src' dest msg' = (dest, msg') := by rw [DebugComm.routed, hroute]
          have hto : s.replyTo bypass src' msg' = (src', msg') := by
            rw [DebugComm.replyTo, if_pos hzero, DebugComm.routed, hroute]
          rw [if_pos hzero, hkept, hto, dueAck_append_inj (hloop _ _ _) (hdue _ _)]
          constructor
          · rintro ⟨rfl, heq⟩ -
            exact ⟨fun _ => rfl, (ih msg' fun _ => rfl).mp heq hroute⟩
          · intro h
            obtain ⟨hsame, hrest⟩ := h rfl
            obtain rfl := hsame hzero
            exact ⟨rfl, (ih msg' fun _ => rfl).mpr fun _ => hrest⟩
        · have hto : s.replyTo bypass src' msg' = (src', msg') := if_neg hzero
          rw [if_neg hzero, hto, dueAck_append_inj (hloop _ _ _) (hdue _ _)]
          constructor
          · rintro ⟨-, heq⟩ -
            exact ⟨fun hc => absurd hc hzero, (ih msg' fun _ => rfl).mp heq hroute⟩
          · intro h
            exact ⟨rfl, (ih msg' fun _ => rfl).mpr fun _ => (h rfl).2⟩

/-! ### The guards -/

theorem ackSafe_append {ev ev' : List Event} : AckSafe (ev ++ ev') ↔ AckSafe ev ∧ AckSafe ev' :=
  List.forall_mem_append

theorem ackSafe_dueAck (ack : Bool) (reply : TDataChan × TCommMsg) : AckSafe (dueAck ack reply) := by
  unfold dueAck
  split
  · rename_i hsend
    intro e he
    rw [List.mem_singleton] at he
    subst he
    refine ⟨nofun, fun msg hc => ?_⟩
    rw [Bool.and_eq_true, bne_iff_ne] at hsend
    exact hsend.2 (Event.ack.inj hc).1
  · exact fun e he => absurd he List.not_mem_nil

theorem ackSafe_dueEvents (l : List Addr) : ∀ src msg, AckSafe (dueEvents s ack l src msg) := by
  induction l with
  | nil => exact fun _ _ e he => absurd he List.not_mem_nil
  | cons a l ih =>
    intro src msg
    rw [dueEvents]
    cases (s.tcmd a).func with
    | none => exact ih src msg
    | some f =>
      refine List.forall_mem_cons.mpr ⟨⟨nofun, fun _ => nofun⟩, ?_⟩
      exact ackSafe_append.mpr ⟨ackSafe_dueAck _ _, ih _ _⟩

theorem ackSafe_serveVar (t : Sys) (msg : TCommMsg) (v : TVarItem) (p : Addr) :
    AckSafe (serveVar t msg v p).2.2 := by
  have hnil : AckSafe [] := fun e he => absurd he List.not_mem_nil
  have hwrite : ∀ dev off data ok, AckSafe [.devWrite dev off data ok] := fun _ _ _ _ e he => by
    rw [List.mem_singleton] at he
    subst he
    exact ⟨nofun, fun _ => nofun⟩
  unfold serveVar
  dsimp only
  split_ifs
  · exact hwrite _ _ _ _
  · exact hwrite _ _ _ _
  · exact hnil
  · exact hnil
  · exact hnil
  · exact hnil

/-- Behind the loop the guards are missing where the message is sent on. -/
theorem ackSafe_serveAuto_iff (t : Sys) (ack : Bool) (src : TDataChan) (msg : TCommMsg) :
    AckSafe (serveAuto t ack ⟨src, src, msg, false, []⟩).2 ↔
      ((t.comm.routed src src msg).1 ≠ src →
        ack = true ∧ (t.comm.routed src src msg).1 ≠ chanNull) := by
  rcases hroute : t.comm.routed src src msg with ⟨dest, msg'⟩
  by_cases hsrc : dest = src
  · subst hsrc
    refine ⟨fun _ hc => absurd rfl hc, fun _ => ?_⟩
    simp only [serveAuto, hroute, if_true]
    rcases hauto : varAutoUpdateService t msg' with - | ⟨t', reply, ev⟩
    · exact fun e he => absurd he List.not_mem_nil
    · obtain ⟨-, -, -, -, p, -, hserve⟩ := varAutoUpdateService_eq_some hauto
      have hev := ackSafe_serveVar t msg' (t.comm.varList msg'.cmd.toNat) p
      rw [hserve] at hev
      refine ackSafe_append.mpr ⟨hev, ?_⟩
      have hsafe := ackSafe_dueAck ack (dest, reply)
      rwa [← dueAck_eq] at hsafe
  · simp only [serveAuto, hroute, if_neg (Ne.symm hsrc), ackCommMsg]
    constructor
    · intro h _
      cases ack with
      | false => exact absurd rfl (h .ackNull List.mem_cons_self).1
      | true => exact ⟨rfl, fun hc => (h (.ack dest msg') List.mem_cons_self).2 msg' (by rw [hc])⟩
    · intro h e he
      obtain ⟨rfl, hnull⟩ := h hsrc
      obtain rfl := List.mem_singleton.mp he
      exact ⟨nofun, fun _ hc => hnull (Event.ack.inj hc).1⟩

/-- **When the replies are right.**  With handlers: there is no `ack`, or a route function, or
every handler that returns 0 leaves `*src` as it found it.  Without: the message stays here, or
there are an `ack` and a channel for it. -/
theorem acksRight_iff {fuel : ℕ} {s : Sys} {l : List Addr} (msg : TCommMsg)
    (h : Chain (fun a => (s.comm.tcmd a).next) (s.comm.cmdlist (slot msg.dir.toNat msg.cmd.toNat)) l)
    (hfuel : l.length ≤ fuel) (src : TDataChan) (ack : Bool) :
    AcksRight fuel s l src msg ack ↔ (s.Accepts msg →
      (s.comm.HasHandler l → ack = true → s.comm.routeFunc = none → KeepsSource s.comm l src msg) ∧
      (¬ s.comm.HasHandler l → (s.comm.routed src src msg).1 ≠ src →
        ack = true ∧ (s.comm.routed src src msg).1 ≠ chanNull)) := by
  by_cases hacc : s.Accepts msg
  · have hserve := cmdService_of_guard hacc fuel src ack
    rw [h.walk_eq _ _ hfuel, Option.map_some] at hserve
    set st := l.foldl (serveItem s.comm ack) ⟨src, src, msg, false, []⟩ with hst
    have hcmd : st.hasCmd = true ↔ s.comm.HasHandler l := by
      rw [hst, foldl_serveItem_hasCmd]
      simp
    unfold AcksRight
    rw [hserve]
    by_cases hhas : s.comm.HasHandler l
    · have hev : st.events = loopEvents s.comm ack l src src msg := foldl_serveItem_events l _
      have hloop : loopEvents s.comm ack l src src msg = dueEvents s.comm ack l src msg ↔
          (ack = true → s.comm.routeFunc = none → KeepsSource s.comm l src msg) := by
        cases ack with
        | false => exact ⟨fun _ hc => absurd hc Bool.false_ne_true, fun _ => loopEvents_false l src src msg⟩
        | true => exact (loopEvents_true_iff l msg fun _ => rfl).trans ⟨fun h _ => h, fun h => h rfl⟩
      rw [finishService, if_pos (hcmd.mpr hhas), hev]
      constructor
      · rintro ⟨ret, s', ev, heq, -, hdue⟩ -
        obtain ⟨-, -, rfl⟩ := by simpa only [Option.some.injEq, Prod.mk.injEq] using heq
        exact ⟨fun _ => hloop.mp (hdue hacc hhas), fun hc => absurd hhas hc⟩
      · intro hcond
        have hdue := hloop.mpr ((hcond hacc).1 hhas)
        refine ⟨_, _, _, rfl, ?_, fun _ _ => hdue⟩
        rw [hdue]
        exact ackSafe_dueEvents l src msg
    · have hnone : ∀ a ∈ l, (s.comm.tcmd a).func = none := by
        simpa [DebugComm.HasHandler] using hhas
      have hidle : st = ⟨src, src, msg, false, []⟩ := foldl_serveItem_of_no_handler hnone
      have hauto := ackSafe_serveAuto_iff (s.touchAt (slot msg.dir.toNat msg.cmd.toNat)) ack src msg
      rw [hidle, finishService, if_neg Bool.false_ne_true]
      constructor
      · rintro ⟨ret, s', ev, heq, hsafe, -⟩ -
        obtain ⟨-, -, rfl⟩ := by simpa only [Option.some.injEq, Prod.mk.injEq] using heq
        exact ⟨fun hc => absurd hc hhas, fun _ => hauto.mp hsafe⟩
      · intro hcond
        exact ⟨_, _, _, rfl, hauto.mpr ((hcond hacc).2 hhas), fun _ hc => absurd hc hhas⟩
  · refine ⟨fun _ hc => absurd hc hacc, fun _ => ?_⟩
    refine ⟨_, _, _, cmdService_of_not_guard (Bool.eq_false_iff.mpr hacc) fuel src ack, ?_, ?_⟩
    · exact fun e he => absurd he List.not_mem_nil
    · exact fun hc => absurd hc hacc

/-- DebugComm.c after the objects of a list were registered. -/
def registeredSys (base : Addr → TCmd) (items : List Addr) (route : Option RouteTableFunc) : Sys where
  comm := { items.foldl (fun s a => (registerCmd none s (some a)).2) (DebugComm.reset base) with
    routeFunc := route }
  pcfg := ParamCfg.reset (fun _ => fm25l16Device) fun _ _ => 0
  mem := fun _ => 0

/-- Two handlers for one message: the one called first answers for another channel and returns 1,
the other one leaves the channel and returns 0. -/
theorem acksRight_iff_two_handlers :
    AcksRight 2 (registeredSys (fun a => ⟨1, 8, some fun src msg =>
      if a = 1 then (1, 4, msg) else (0, src, msg), none⟩) [0, 1] none) [1, 0] chanEth0
      ⟨0, 1, 8, fun _ => 0⟩ true := by
  set s := registeredSys (fun a => ⟨1, 8, some fun src msg =>
    if a = 1 then (1, 4, msg) else (0, src, msg), none⟩) [0, 1] none
  have hchain : Chain (fun a => (s.comm.tcmd a).next) (s.comm.cmdlist (slot 1 8)) [1, 0] :=
    ⟨rfl, rfl, rfl⟩
  refine (acksRight_iff ⟨0, 1, 8, fun _ => 0⟩ hchain le_rfl chanEth0 true).mpr
    fun _ => ⟨fun _ _ _ => ?_, ?_⟩
  · exact ⟨fun hc => absurd hc (by decide), fun _ => rfl, trivial⟩
  · exact fun hnone => absurd ⟨0, by decide, nofun⟩ hnone

/-- A handler that points `*src` elsewhere and returns 0, where there is no route function: the
reply goes to where the message came from.  And two messages that are sent on: one without an
`ack`, which is called, and one to `CHAN_NULL`. -/
theorem reply_astray :
    (∃ s, s = registeredSys (fun _ => ⟨1, 8, some fun _ msg => (0, 4, msg), none⟩) [0] none ∧
      (cmdService 1 s chanEth0 ⟨0, 1, 8, fun _ => 0⟩ true).map (fun r => r.2.2)
          = some [.handler 0 chanEth0 ⟨0, 1, 8, fun _ => 0⟩, .ack chanEth0 ⟨0, 1, 8, fun _ => 0⟩] ∧
        ¬ AcksRight 1 s [0] chanEth0 ⟨0, 1, 8, fun _ => 0⟩ true) ∧
    (∃ s, s = registeredSys (fun _ => ⟨1, 8, none, none⟩) [0] (some fun _ msg => (4, msg)) ∧
      (cmdService 1 s chanEth0 ⟨0, 1, 0, fun _ => 0⟩ false).map (fun r => r.2.2) = some [.ackNull] ∧
        ¬ AcksRight 1 s [] chanEth0 ⟨0, 1, 0, fun _ => 0⟩ false) ∧
    ∃ s, s = registeredSys (fun _ => ⟨1, 8, none, none⟩) [0] (some fun _ msg => (chanNull, msg)) ∧
      (cmdService 1 s chanEth0 ⟨0, 1, 0, fun _ => 0⟩ true).map (fun r => r.2.2)
          = some [.ack chanNull ⟨0, 1, 0, fun _ => 0⟩] ∧
        ¬ AcksRight 1 s [] chanEth0 ⟨0, 1, 0, fun _ => 0⟩ true := by
  have hread : ∀ {fuel s l src msg ack ev}, (cmdService fuel s src msg ack).map (fun r => r.2.2) = some ev →
      AcksRight fuel s l src msg ack →
      AckSafe ev ∧ (s.Accepts msg → s.comm.HasHandler l → ev = dueEvents s.comm ack l src msg) := by
    rintro fuel s l src msg ack ev hev ⟨ret, s', ev', heq, hsafe, hdue⟩
    rw [heq] at hev
    obtain rfl : ev' = ev := Option.some.inj hev
    exact ⟨hsafe, hdue⟩
  refine ⟨⟨_, rfl, rfl, fun h => ?_⟩, ⟨_, rfl, rfl, fun h => ?_⟩, ⟨_, rfl, rfl, fun h => ?_⟩⟩
  · have hdue := (hread rfl h).2 rfl ⟨0, by decide, nofun⟩
    have hto : chanEth0 = 4 := (Event.ack.inj (List.cons.inj (List.cons.inj hdue).2).1).1
    exact absurd hto (by decide)
  · exact ((hread rfl h).1 _ List.mem_cons_self).1 rfl
  · exact ((hread rfl h).1 _ List.mem_cons_self).2 _ rfl

end Start01
