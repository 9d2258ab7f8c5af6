import Mathlib.Data.Multiset.OrderedMonoid
import UsbProxy.ControlAnswers
import UsbProxy.GadgetControl

/-!
# The control endpoint from the host to the device

The relay of endpoint 0 with the gadget proxy on the one side and, on the other, a record of every control
transfer.  `Direct` is what all of it is for: what passes through the device file and what the device is
asked fit together as if the host made its requests to the device itself.

The packet of the open request is the only one of the host's that is anywhere (`Single`), and `InFlight` says
what it is on its way to the device and back.
-/

namespace UsbProxy

/-- A control transfer: the request, the data that goes with it and what the device makes of it. -/
structure DeviceTransfer where
  request : CtrlRequest
  sent : List Byte
  outcome : Outcome
  deriving DecidableEq, Repr

/-- What the device is sent of the block at `data`. -/
def SetupPacket.sent (p : SetupPacket) : List Byte :=
  if p.ctrlReq.deviceToHost then [] else p.dataRead

/-- The data the host sends with a request. -/
def CtrlRequest.sent (r : CtrlRequest) (data : Option (List Byte)) : List Byte :=
  if r.hasData then r.block data else []

/-- How far the host's request is. -/
inductive RequestPhase
  | idle
  | asked (r : CtrlRequest) (data : Option (List Byte))
  | answered (r : CtrlRequest) (o : Outcome)

/-- The host makes its requests to the device: each is put to it once, with the host's data, and concluded with
what the device makes of it before the next one is read. -/
inductive Direct : List DeviceTransfer → List FileOp → RequestPhase → Prop
  | nil : Direct [] [] .idle
  | event {ts : List DeviceTransfer} {file : List FileOp} (h : Direct ts file .idle) (e : GadgetEvent)
      (he : ∀ r, e ≠ .setup r) : Direct ts (file ++ [.event e]) .idle
  | request {ts : List DeviceTransfer} {file : List FileOp} (h : Direct ts file .idle)
      (r : CtrlRequest) (data : Option (List Byte)) :
      Direct ts (file ++ Gadget.asked r data) (.asked r data)
  | transfer {ts : List DeviceTransfer} {file : List FileOp} {r : CtrlRequest}
      {data : Option (List Byte)} (h : Direct ts file (.asked r data)) (o : Outcome) :
      Direct (ts ++ [⟨r, r.sent data, o⟩]) file (.answered r o)
  | reply {ts : List DeviceTransfer} {file : List FileOp} {r : CtrlRequest} {o : Outcome}
      (h : Direct ts file (.answered r o)) :
      Direct ts (file ++ [Gadget.conclusion r (r.reply o)]) .idle

/-- The request in a setup event. -/
def FileOp.request? : FileOp → Option CtrlRequest
  | .event (.setup r) => some r
  | _ => none

namespace RequestPhase

/-- The request that is not put to the device yet. -/
def waiting : RequestPhase → List CtrlRequest
  | .asked r _ => [r]
  | .idle | .answered _ _ => []

/-- The request that is not concluded yet. -/
def request? : RequestPhase → Option CtrlRequest
  | .idle => none
  | .asked r _ | .answered r _ => some r

/-- The packet of the host on its way to the device. -/
def Out : RequestPhase → SetupPacket → Prop
  | .asked r data, p => p = .new r (if r.hasData then some (r.block data) else none)
  | .idle, _ | .answered _ _, _ => False

/-- The packet of the host on its way back. -/
def Back : RequestPhase → SetupPacket → Prop
  | .answered r o, p => p.answer = r.reply o
  | .idle, _ | .asked _ _, _ => False

end RequestPhase

section Direct

variable {ts : List DeviceTransfer} {file : List FileOp} {phase : RequestPhase}

theorem filterMap_asked (r : CtrlRequest) (data : Option (List Byte)) :
    (Gadget.asked r data).filterMap FileOp.request? = [r] := by
  unfold Gadget.asked
  cases r.hasData <;> rfl

theorem request?_conclusion (r : CtrlRequest) (a : Answer) :
    (Gadget.conclusion r a).request? = none := by
  cases a with
  | sendData bytes => rfl
  | controlAck | stallEp =>
    unfold Gadget.conclusion
    dsimp only
    split_ifs <;> rfl

/-- The device is asked what is read from the file, in order, but for a request that waits. -/
theorem Direct.requests (h : Direct ts file phase) :
    file.filterMap FileOp.request? = ts.map DeviceTransfer.request ++ phase.waiting := by
  induction h with
  | nil => rfl
  | event _ e he ih =>
    have hnone : FileOp.request? (.event e) = none := by
      cases e with
      | setup r => exact absurd rfl (he r)
      | nop | connect | disconnect | suspend | unknown => rfl
    rw [List.filterMap_append, ih, List.filterMap_cons_none hnone, List.filterMap_nil, List.append_nil]
  | request _ r data ih =>
    rw [List.filterMap_append, ih, filterMap_asked]
    exact congrArg (· ++ [r]) (List.append_nil _)
  | transfer _ o ih =>
    rw [ih, List.map_append]
    exact (List.append_nil _).symm
  | reply _ ih =>
    rw [List.filterMap_append, ih, List.filterMap_cons_none (request?_conclusion _ _), List.filterMap_nil,
      List.append_nil]
    rfl

end Direct

/-- The relay on the gadget, and the control transfers so far. -/
structure ControlPath where
  host : ControlGadget
  transfers : List DeviceTransfer

namespace ControlPath

open ControlHistory

def new (filters : List Plugin) (length : ℤ) (device : Device) (ctrlReq lastControl : CtrlRequest) :
    ControlPath where
  host := .new filters length device ctrlReq lastControl
  transfers := []

/-- The transfer in a move of the relay. -/
def transferred (r : ControlRelay) : ControlMove → List DeviceTransfer
  | .transfer o =>
    match r.writer.pc with
    | .handling p _ =>
      (r.writer.state.request p).toList.map fun request =>
        { request, sent := (r.writer.state.outgoing p).sent, outcome := o }
    | _ => []
  | _ => []

def step (s : ControlPath) (m : ControlGadgetMove) : Option ControlPath :=
  (s.host.step m).map fun host =>
    { host, transfers := s.transfers ++ transferred s.host.relay (s.host.under m) }

/-! ## Where the host's packet is -/

/-- What holds of the host's packets holds of the entry. -/
def OfHost (P : SetupPacket → Prop) (e : Entry) : Prop := ∀ p k, e = .setup p (.host k) → P p

/-- The packet the reader has made or is about to make. -/
def readerMakes (count : ℕ) : ControlReaderPc → Entry
  | .requested (.setup r buf) => .setup (.new r buf) (.host count)
  | .enqueuing p => .setup p (.host count)
  | _ => .null

def readerTakes : ControlReaderPc → Entry
  | .dequeued e => e
  | _ => .null

/-- The packet in the writer's hands behind the transfer. -/
def writerGives : ControlWriterPc → Entry
  | .enqueuing p origin => .setup p origin
  | _ => .null

/-- Every packet of the host on its way out is `Out`, and every one on its way back is `Back`. -/
structure InFlight (Out Back : SetupPacket → Prop) (s : ControlRelay) : Prop where
  made : OfHost Out (readerMakes s.count s.reader.pc)
  readersend : s.readersend.All (OfHost Out)
  hand : OfHost Out (writerHand s.writer.pc)
  given : OfHost Back (writerGives s.writer.pc)
  writersend : s.writersend.All (OfHost Back)
  taken : OfHost Back (readerTakes s.reader.pc)

variable {Out Back : SetupPacket → Prop} {s t : ControlRelay} {m : ControlMove} {e : Entry}

theorem ofHost_null : OfHost Out .null := fun _ _ h => nomatch h

theorem ofHost_packet (p : Packet) : OfHost Out (.packet p) := fun _ _ h => nomatch h

theorem ofHost_injected (p : SetupPacket) : OfHost Out (.setup p .injected) := fun _ _ h => nomatch h

theorem ofHost_free (h : e.hosts = 0) : OfHost Out e := by
  rintro p k rfl
  exact absurd h (Multiset.singleton_ne_zero k)

theorem InFlight.read (h : InFlight Out Back s) (hstep : ControlRelay.ReadStep s t) :
    InFlight Out Back t := by
  obtain ⟨hmade, hreadersend, hhand, hgiven, hwritersend, htaken⟩ := h
  cases hstep with
  | stop | listen | await | again | pass | skip | reply | settle =>
    exact ⟨ofHost_null, hreadersend, hhand, hgiven, hwritersend, ofHost_null⟩
  | accept hpc =>
    rw [hpc] at hmade
    exact ⟨hmade, hreadersend, hhand, hgiven, hwritersend, ofHost_null⟩
  | handOn hpc =>
    rw [hpc] at hmade
    exact ⟨ofHost_null, hreadersend.enqueue hmade, hhand, hgiven, hwritersend, ofHost_null⟩
  | take hpc hd =>
    obtain ⟨he, hrest⟩ := hwritersend.dequeue hd
    exact ⟨ofHost_null, hreadersend, hhand, hgiven, hrest, he⟩

theorem InFlight.write (h : InFlight Out Back s) (hstep : ControlRelay.WriteStep s t) :
    InFlight Out Back t := by
  obtain ⟨hmade, hreadersend, hhand, hgiven, hwritersend, htaken⟩ := h
  cases hstep with
  | stop | next | skip =>
    exact ⟨hmade, hreadersend, ofHost_null, ofHost_null, hwritersend, htaken⟩
  | take hpc hd =>
    obtain ⟨he, hrest⟩ := hreadersend.dequeue hd
    exact ⟨hmade, hrest, he, ofHost_null, hwritersend, htaken⟩
  | handle hpc =>
    rw [hpc] at hhand
    exact ⟨hmade, hreadersend, hhand, ofHost_null, hwritersend, htaken⟩
  | handBack hpc =>
    rw [hpc] at hgiven
    exact ⟨hmade, hreadersend, ofHost_null, ofHost_null, hwritersend.enqueue hgiven, htaken⟩

theorem InFlight.step (h : InFlight Out Back s) (hstep : s.step m = some t)
    (htransfer : ∀ o, m ≠ .transfer o) (hrequest : ∀ r buf, m ≠ .hostRequest (.setup r buf)) :
    InFlight Out Back t := by
  cases m with
  | transfer o => exact absurd rfl (htransfer o)
  | read => exact h.read (ControlRelay.read_step hstep)
  | write => exact h.write (ControlRelay.write_step hstep)
  | hostRequest rc =>
    simp only [ControlRelay.step, ControlRelay.hostRequest] at hstep
    split_ifs at hstep
    cases hstep
    cases rc with
    | setup r buf => exact absurd rfl (hrequest r buf)
    | disconnect | connect | other =>
      exact ⟨ofHost_null, h.readersend, h.hand, h.given, h.writersend, ofHost_null⟩
  | sendComplete done =>
    simp only [ControlRelay.step, ControlRelay.sendComplete] at hstep
    split_ifs at hstep <;> cases hstep <;>
      exact ⟨ofHost_null, h.readersend, h.hand, h.given, h.writersend, ofHost_null⟩
  | injectSetup p =>
    cases hstep
    exact ⟨h.made, h.readersend.enqueuePriority (ofHost_injected p), h.hand, h.given, h.writersend, h.taken⟩
  | injectPacket p =>
    cases hstep
    unfold ControlRelay.injectPacket
    split_ifs
    · exact h
    · exact ⟨h.made, h.readersend, h.hand, h.given, h.writersend.enqueuePriority (ofHost_packet p), h.taken⟩
    · exact ⟨h.made, h.readersend.enqueuePriority (ofHost_packet p), h.hand, h.given, h.writersend, h.taken⟩
  | wakeReader =>
    cases hstep
    exact ⟨h.made, h.readersend, h.hand, h.given, h.writersend.enqueue ofHost_null, h.taken⟩
  | wakeWriter =>
    cases hstep
    exact ⟨h.made, h.readersend.enqueue ofHost_null, h.hand, h.given, h.writersend, h.taken⟩
  | stopReader => cases hstep; exact ⟨h.made, h.readersend, h.hand, h.given, h.writersend, h.taken⟩
  | stopWriter => cases hstep; exact ⟨h.made, h.readersend, h.hand, h.given, h.writersend, h.taken⟩

theorem all_free {q : SafeQueue Entry} (h : q.weight Entry.hosts = 0) : q.All (OfHost Out) := by
  obtain ⟨hpriority, hplain⟩ := add_eq_zero.1 h
  intro e he
  rcases List.mem_append.1 he with he | he
  · exact ofHost_free (Lane.eq_zero_of_weight hpriority e he)
  · exact ofHost_free (Lane.eq_zero_of_weight hplain e he)

theorem inFlight_of_hosts (h : s.hosts = 0) (hmade : OfHost Out (readerMakes s.count s.reader.pc))
    (htaken : OfHost Back (readerTakes s.reader.pc)) : InFlight Out Back s := by
  obtain ⟨hfront, hwritersend⟩ := add_eq_zero.1 h
  obtain ⟨hreadersend, hwriter⟩ := add_eq_zero.1 hfront
  refine ⟨hmade, all_free hreadersend, ?_, ?_, all_free hwritersend, htaken⟩ <;>
    cases hpc : s.writer.pc <;> rw [hpc] at hwriter <;> first | exact ofHost_null | exact ofHost_free hwriter

/-! ## There is one of them at most -/

/-- The host requests anywhere, those in the reader's hands included. -/
def everywhere (s : ControlRelay) : Multiset ℕ :=
  s.hosts + (readerMakes s.count s.reader.pc).hosts + (readerTakes s.reader.pc).hosts

def Single (s : ControlRelay) : Prop := (everywhere s).card ≤ 1

theorem single_of_stage (hs : s.Stage) (hpc : s.reader.pc ≠ .finished) : Single s := by
  have hle {m : Multiset ℕ} {k : ℕ} (h : m ≤ {k}) : m.card ≤ 1 := by
    have := Multiset.card_le_card h
    rwa [Multiset.card_singleton] at this
  have hnone (h : s.hosts = 0) : (s.hosts + 0 + 0).card ≤ 1 := by
    rw [h]
    exact Nat.zero_le 1
  have hone (h : s.hosts = 0) (k : ℕ) : (s.hosts + {k} + 0).card ≤ 1 := by
    rw [h, zero_add, add_zero]
    exact hle le_rfl
  unfold ControlRelay.Stage at hs
  unfold Single everywhere
  cases h : s.reader.pc <;> rw [h] at hs
  case top =>
    rcases hs with hs | ⟨k, hs⟩ | hs
    · exact hnone hs.hosts
    · rw [add_assoc]
      exact hle hs.hosts
    · exact hnone hs.hosts
  case requesting => exact hnone hs.hosts
  case requested rc =>
    cases rc with
    | setup r buf => exact hone hs.hosts s.count
    | disconnect | connect | other => exact hnone hs.hosts
  case enqueuing => exact hone hs.hosts s.count
  case dequeuing =>
    obtain ⟨k, hs⟩ := hs
    rw [add_assoc]
    exact hle hs.hosts
  case dequeued e =>
    obtain ⟨-, k, hs⟩ := hs
    rw [add_right_comm]
    exact hle ((add_zero _).trans_le hs.hosts)
  case replied => exact hnone hs.hosts
  case completing => exact hnone hs.hosts
  case finished => exact absurd h hpc

theorem hosts_of_finished (h : s.step m = some t) (hpc : t.reader.pc = .finished) : t.hosts ≤ s.hosts := by
  cases m with
  | read => cases ControlRelay.read_step h <;> first | exact le_rfl | cases hpc
  | hostRequest rc =>
    simp only [ControlRelay.step, ControlRelay.hostRequest] at h
    split_ifs at h
    cases h
    cases hpc
  | sendComplete done =>
    simp only [ControlRelay.step, ControlRelay.sendComplete] at h
    split_ifs at h <;> cases h <;> cases hpc
  | write | transfer | injectSetup | injectPacket | stopReader | wakeReader | stopWriter | wakeWriter =>
    exact (ControlRelay.step_aside h (by simp) (by simp) (by simp)).hosts

theorem Single.step (h : Single s) (hstep : s.step m = some t) (ht : t.Stage) : Single t := by
  by_cases hpc : t.reader.pc = .finished
  · have hsame : everywhere t = t.hosts := by
      unfold everywhere
      rw [hpc]
      show t.hosts + 0 + 0 = t.hosts
      rw [add_zero, add_zero]
    unfold Single
    rw [hsame]
    refine (Multiset.card_le_card ?_).trans h
    refine (hosts_of_finished hstep hpc).trans ?_
    unfold everywhere
    rw [add_assoc]
    exact Multiset.le_add_right _ _
  · exact single_of_stage ht hpc

theorem Single.handling (h : Single s) {p : SetupPacket} {k : ℕ}
    (hpc : s.writer.pc = .handling p (.host k)) : s.readersend.weight Entry.hosts = 0 ∧
      s.writersend.weight Entry.hosts = 0 ∧ (readerMakes s.count s.reader.pc).hosts = 0 ∧
      (readerTakes s.reader.pc).hosts = 0 := by
  unfold Single everywhere ControlRelay.hosts at h
  rw [hpc] at h
  simp only [ControlWriterPc.hosts, Origin.hosts, Multiset.card_add, Multiset.card_singleton] at h
  refine ⟨?_, ?_, ?_, ?_⟩ <;> apply Multiset.card_eq_zero.1 <;> omega

/-! ## One step -/

/-- The two sides fit together, and the packet in flight is that of the open request. -/
structure Mirrors (s : ControlPath) (phase : RequestPhase) : Prop where
  direct : Direct s.transfers s.host.gadget.file phase
  flight : InFlight phase.Out phase.Back s.host.relay
  lastControl : ∀ r, phase.request? = some r → s.host.gadget.lastControl = r
  opened : phase ≠ .idle → ∃ front k r, s.host.relay.log = front ++ [.request k r]

/-- What one step keeps. -/
structure Kept (s : ControlPath) : Prop where
  clean : s.host.relay.Clean
  stage : s.host.relay.Stage
  single : Single s.host.relay
  plain : Plain s.host.relay
  mirrors : ∃ phase, s.Mirrors phase

theorem sent_new (r : CtrlRequest) (data : Option (List Byte)) :
    (SetupPacket.new r (if r.hasData then some (r.block data) else none)).sent = r.sent data := by
  unfold SetupPacket.sent CtrlRequest.sent
  cases hdata : r.hasData with
  | true =>
    have hdir : r.deviceToHost = false := by
      unfold CtrlRequest.hasData at hdata
      rw [Bool.and_eq_true, Bool.not_eq_true'] at hdata
      exact hdata.1
    have hlength : (r.block data).length = r.wLength.toNat := List.takeD_length ..
    rw [if_pos rfl, if_pos rfl]
    show (if r.deviceToHost = true then [] else (r.block data).takeD r.wLength.toNat 0) = r.block data
    rw [if_neg (by rw [hdir]; exact Bool.false_ne_true), List.takeD_eq_take _ hlength.ge,
      List.take_of_length_le hlength.le]
  | false =>
    rw [if_neg Bool.false_ne_true, if_neg Bool.false_ne_true]
    show (if r.deviceToHost = true then [] else ([] : List Byte).takeD r.wLength.toNat 0) = []
    split_ifs with hdir
    · rfl
    · unfold CtrlRequest.hasData at hdata
      rw [Bool.not_eq_true] at hdir
      rw [hdir, Bool.not_false, Bool.true_and, bne_eq_false_iff_eq] at hdata
      rw [hdata]
      rfl

section Step

variable {s t : ControlPath} {host : ControlGadget} {relay : ControlRelay} {phase : RequestPhase}

/-- Where the reader asks for a request, none is open. -/
theorem Mirrors.idle (h : s.Mirrors phase) (hs : s.host.relay.Idle) : phase = .idle := by
  by_contra hphase
  obtain ⟨front, k, r, hlog⟩ := h.opened hphase
  refine absurd ?_ ((Dialogue.inTurn_asked Origin.host s.host.relay.count).of_ask
    (front.map ControlEvent.turn) (.host k))
  rw [← hs.turns]
  unfold ControlRelay.turns
  rw [hlog, List.map_append]
  rfl

theorem Mirrors.request {p : Poll} (h : s.Mirrors .idle) (hs : s.host.relay.Idle)
    (hrelay : s.host.relay.hostRequest
      (s.host.gadget.controlRequest s.host.ctrlReq 0 none p).2.hostRequest = some relay) :
    ∃ phase, Mirrors
      { host := { relay, gadget := (s.host.gadget.controlRequest s.host.ctrlReq 0 none p).1
                  ctrlReq := (s.host.gadget.controlRequest s.host.ctrlReq 0 none p).2.setupPacket }
        transfers := s.transfers ++ [] } phase := by
  rw [List.append_nil]
  rcases ControlGadget.controlRequest_cases s.host.gadget s.host.ctrlReq p with
    ⟨ret, heq, hret⟩ | ⟨e, ret, he, hret, heq⟩ | ⟨r, data, ret, hret, heq⟩ <;>
    rw [heq] at hrelay ⊢
  · have hne : ∀ r buf, ret.hostRequest ≠ .setup r buf := by
      rw [hret]
      exact nofun
    exact ⟨.idle, h.direct, h.flight.step (m := .hostRequest _) hrelay nofun
      fun r buf heq => hne r buf (ControlMove.hostRequest.inj heq), nofun, fun h => absurd rfl h⟩
  · exact ⟨.idle, h.direct.event e he, h.flight.step (m := .hostRequest _) hrelay nofun
      fun r buf heq => hret r buf (ControlMove.hostRequest.inj heq), nofun, fun h => absurd rfl h⟩
  · have hlog := (ControlGadget.log_hostRequest hrelay).1 r _ hret
    refine ⟨.asked r data, h.direct.request r data, ?_, fun _ => Option.some.inj, fun _ => ⟨_, _, r, hlog⟩⟩
    obtain ⟨buf, hbuf⟩ : ∃ buf, buf = if r.hasData then some (r.block data) else none := ⟨_, rfl⟩
    dsimp only at hrelay
    rw [hret, ← hbuf] at hrelay
    unfold ControlRelay.hostRequest at hrelay
    split_ifs at hrelay
    cases hrelay
    refine inFlight_of_hosts hs.hosts ?_ ofHost_null
    rintro p k ⟨⟩
    exact congrArg (SetupPacket.new r) hbuf

/-- A transfer: of the host's packet, which is that of the open request, or of an injected one, which is not put
to the device. -/
theorem Mirrors.transfer {o : Outcome} (h : s.Mirrors phase) (hsingle : Single s.host.relay)
    (hplain : Plain s.host.relay) (hdrop : s.host.relay.DropsInjected (.transfer o))
    (hrelay : s.host.relay.transfer o = some relay) :
    ∃ phase, Mirrors
      { host := { s.host with relay }
        transfers := s.transfers ++ transferred s.host.relay (.transfer o) } phase := by
  obtain ⟨p, origin, hpc, rfl⟩ := transfer_eq hrelay
  have hflight := h.flight
  cases origin with
  | injected =>
    have hnone : s.host.relay.writer.state.request p = none := by
      simp only [ControlRelay.DropsInjected, hpc] at hdrop
      exact hdrop
    have htransferred : transferred s.host.relay (.transfer o) = [] := by
      simp only [transferred, hpc, hnone, Option.toList_none, List.map_nil]
    rw [htransferred, List.append_nil]
    refine ⟨phase, h.direct, ⟨hflight.made, hflight.readersend, ?_, ?_, hflight.writersend,
      hflight.taken⟩, h.lastControl, h.opened⟩ <;>
      cases (relayWriteSetup s.host.relay.writer.state p o).reply <;>
      first | exact ofHost_null | exact ofHost_injected _
  | host k =>
    have hhand := hflight.hand
    have hfresh := hplain.hand
    rw [hpc] at hhand hfresh
    have hout : phase.Out p := hhand p k rfl
    cases phase with
    | idle => exact hout.elim
    | answered r o => exact hout.elim
    | asked r data =>
      obtain ⟨houtgoing, hrequest⟩ := request_observed hplain.observed (hfresh p k rfl)
      have hreply := (round_observed hplain.observed (hfresh p k rfl) o).2
      have hr : p.ctrlReq = r := congrArg SetupPacket.ctrlReq hout
      have htransferred : transferred s.host.relay (.transfer o) = [⟨r, r.sent data, o⟩] := by
        have hsent : p.sent = r.sent data := (congrArg SetupPacket.sent hout).trans (sent_new r data)
        simp only [transferred, hpc, hrequest, houtgoing, hsent, hr, Option.toList_some, List.map_cons,
          List.map_nil]
      rw [htransferred]
      obtain ⟨hreadersend, hwritersend, hmade, htaken⟩ := hsingle.handling hpc
      refine ⟨.answered r o, h.direct.transfer o, ⟨ofHost_free hmade, all_free hreadersend, ?_, ?_,
        all_free hwritersend, ofHost_free htaken⟩, h.lastControl,
        fun _ => h.opened RequestPhase.noConfusion⟩
      · cases (relayWriteSetup s.host.relay.writer.state p o).reply <;> exact ofHost_null
      · generalize (relayWriteSetup s.host.relay.writer.state p o).reply = reply at hreply ⊢
        cases reply with
        | none => exact ofHost_null
        | some p' =>
          rintro q j ⟨⟩
          exact (hreply p' rfl).trans (congrArg (CtrlRequest.reply · o) hr)

/-- Any other step of the relay: a reply it gives is the one to the open request. -/
theorem Mirrors.goOn {m : ControlMove} (h : s.Mirrors phase) (hs : s.host.relay.Stage)
    (ht : relay.Stage) (hrelay : s.host.relay.step m = some relay)
    (htransfer : ∀ o, m ≠ .transfer o) (hm : ∀ rc, m ≠ .hostRequest rc) :
    ∃ phase, Mirrors
      { host := { s.host with
          relay, gadget := match ControlGadget.replied s.host.relay relay with
            | none => s.host.gadget
            | some a => s.host.gadget.answer a }
        transfers := s.transfers } phase := by
  rcases ControlGadget.log_step hrelay hm with hlog | ⟨p, origin, hpc, rfl⟩
  · rw [ControlGadget.replied_of_same hlog]
    refine ⟨phase, h.direct, h.flight.step hrelay htransfer fun r buf => hm _, h.lastControl,
      fun hphase => ?_⟩
    dsimp only
    rw [hlog]
    exact h.opened hphase
  · rw [ControlGadget.replied_of_reply rfl]
    unfold ControlRelay.Stage at hs ht
    rw [hpc] at hs
    have htaken := h.flight.taken
    rw [hpc] at htaken
    cases origin with
    | injected => exact absurd rfl (hs.1 p)
    | host k =>
      have hback : phase.Back p := htaken p k rfl
      cases phase with
      | idle => exact hback.elim
      | asked r data => exact hback.elim
      | answered r o =>
        refine ⟨.idle, ?_, inFlight_of_hosts ht.hosts ofHost_null ofHost_null, nofun,
          fun hphase => absurd rfl hphase⟩
        dsimp only
        unfold Gadget.answer
        rw [h.lastControl r rfl, show p.answer = r.reply o from hback]
        exact h.direct.reply

theorem Kept.step {m : ControlGadgetMove} (h : s.step m = some t)
    (hdrop : s.host.relay.DropsInjected (s.host.under m)) (hs : s.Kept) : t.Kept := by
  obtain ⟨host, hhost, rfl⟩ := Option.map_eq_some_iff.1 h
  have hunder := ControlGadget.step_under hhost
  have hstage := ControlRelay.step_stage hunder hs.clean hs.stage
  obtain ⟨phase, hmirrors⟩ := hs.mirrors
  refine ⟨ControlRelay.step_clean hunder hdrop hs.clean, hstage, hs.single.step hunder hstage,
    hs.plain.step hunder, ?_⟩
  cases ControlGadget.step_cases hhost with
  | @request p relay hrequest =>
    have hpc : s.host.relay.reader.pc = .requesting := by
      unfold ControlRelay.hostRequest at hrequest
      split_ifs at hrequest with hpc
      exact hpc
    have hidle : s.host.relay.Idle := by
      have := hs.stage
      unfold ControlRelay.Stage at this
      rwa [hpc] at this
    obtain rfl := hmirrors.idle hidle
    exact hmirrors.request hidle hrequest
  | @relay m relay hm hrelay =>
    by_cases htransfer : ∃ o, m = .transfer o
    · obtain ⟨o, rfl⟩ := htransfer
      have hlog : relay.log = s.host.relay.log :=
        (ControlRelay.step_aside hrelay nofun nofun nofun).log
      rw [ControlGadget.replied_of_same hlog]
      exact hmirrors.transfer hs.single hs.plain hdrop hrelay
    · have hne : ∀ o, m ≠ .transfer o := fun o ho => htransfer ⟨o, ho⟩
      have htransferred : transferred s.host.relay m = [] := by
        cases m with
        | transfer o => exact absurd rfl (hne o)
        | _ => rfl
      show ∃ phase, Mirrors { host := _, transfers := s.transfers ++ transferred s.host.relay m } phase
      rw [htransferred, List.append_nil]
      exact hmirrors.goOn hs.stage hstage hrelay hne hm

end Step

end ControlPath

end UsbProxy
