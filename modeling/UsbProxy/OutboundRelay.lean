import UsbProxy.GadgetReceive
import UsbProxy.InboundRelay
import UsbProxy.LibusbTransfer

/-!
# An OUT endpoint from the host to the device

The relay of one OUT endpoint with both proxies: the kernel completes the asynchronous read of the endpoint,
`receive_data` of the gadget proxy hands its bytes to the reader and submits the next read, and what the
writer takes out of the queue goes to the device by `send_data` of the libusb proxy.  The other OUT endpoints
share the gadget proxy.

`Carries` says where the bytes are that have arrived and the device does not have yet: in the completed read,
with the reader, in the queue, with the writer.
-/

namespace UsbProxy

open Thinning GadgetReceive Resending

/-! ## What one `send_data` brings across -/

namespace DeviceProxyLibUSB

variable {length : ℕ} {attributes : Byte} {outcomes : ℕ → TransferOutcome length}

/-- The counts of the transfers that `send_data` makes on a bulk or an interrupt endpoint. -/
def transferCounts (attributes : Byte) (outcomes : ℕ → TransferOutcome length) : List ℕ :=
  if attributes &&& USB_ENDPOINT_XFERTYPE_MASK = USB_ENDPOINT_XFER_BULK then counts outcomes
  else [(outcomes 0).transferred.val]

/-- One of the transfers brings the whole buffer across, and no other one anything. -/
def Across (attributes : Byte) (outcomes : ℕ → TransferOutcome length) : Prop :=
  Single (transferCounts attributes outcomes) ∧ length ∈ transferCounts attributes outcomes

instance : Decidable (Across attributes outcomes) :=
  inferInstanceAs (Decidable (List.Pairwise _ _ ∧ _))

/-- A bulk or an interrupt endpoint. -/
def Transfers (attributes : Byte) : Prop :=
  attributes &&& USB_ENDPOINT_XFERTYPE_MASK = USB_ENDPOINT_XFER_BULK ∨
    attributes &&& USB_ENDPOINT_XFERTYPE_MASK = USB_ENDPOINT_XFER_INT

instance : Decidable (Transfers attributes) := inferInstanceAs (Decidable (_ ∨ _))

theorem acceptedBy_sendData {p : DeviceProxyLibUSB} {endpoint : Byte}
    (hclaimed : p.endpointInterfaceClaimed endpoint = true) (htype : Transfers attributes)
    (dataptr : Vector Byte length) : acceptedBy (p.sendData endpoint attributes dataptr outcomes) =
      taken dataptr.toList (transferCounts attributes outcomes) := by
  unfold transferCounts
  rcases htype with hbulk | hint
  · rw [sendData_bulk p hbulk hclaimed, if_pos hbulk]
    exact acceptedBy_rounds endpoint dataptr _
  · unfold sendData
    rw [hclaimed, hint]
    rfl

theorem acceptedBy_of_across {p : DeviceProxyLibUSB} {endpoint : Byte}
    (hclaimed : p.endpointInterfaceClaimed endpoint = true) (htype : Transfers attributes)
    (hacross : Across attributes outcomes) (dataptr : Vector Byte length) :
    acceptedBy (p.sendData endpoint attributes dataptr outcomes) = dataptr.toList := by
  rw [acceptedBy_sendData hclaimed htype]
  exact taken_eq_of_isPrefix (hacross.1.taken_isPrefix _) (by rw [dataptr.length_toList]; exact hacross.2)

end DeviceProxyLibUSB

/-- The first `wLength` bytes at `data`, as `send_data` gets them. -/
def Packet.dataptr (p : Packet) : Vector Byte p.payload.length := ⟨p.payload.toArray, rfl⟩

/-! ## What the kernel has read -/

namespace GadgetReceive

/-- The bytes of a completion. -/
def Completion.read : Completion → List (List Byte)
  | bytes data => [data]
  | failed _ => []

/-- The bytes of a read that has completed. -/
def Aiocb.read (aio : Aiocb) : List (List Byte) := aio.completion.elim [] Completion.read

namespace Host

variable {h : Host} {c : Call} {n : Byte} {aio : Aiocb}

/-- What has been read from an endpoint and not been collected. -/
def uncollected (h : Host) (n : Byte) : List (List Byte) := (h.slots n).elim [] Aiocb.read

/-- What is read during a call. -/
def readDuring (h : Host) (c : Call) : List (List Byte) :=
  match h.slots (c.endpoint &&& 0x0f) with
  | none => []
  | some aio =>
    if aio.completion.isNone && c.timeout != 0 then c.during.elim [] Completion.read else []

theorem uncollected_put_self (slot : Option Aiocb) :
    (h.put n slot).uncollected n = slot.elim [] Aiocb.read := by
  unfold uncollected
  rw [slots_put_self]

theorem uncollected_put_of_ne {m : Byte} (hm : m ≠ n) (slot : Option Aiocb) :
    (h.put n slot).uncollected m = h.uncollected m := by
  unfold uncollected
  rw [slots_put_of_ne hm]

theorem uncollected_collect (hslot : h.slots n = some aio) :
    (h.collect n aio c).2.toList ++ (h.collect n aio c).1.uncollected n = aio.read := by
  have hsame : (h.see aio).uncollected n = aio.read := congrArg (Option.elim · [] Aiocb.read) hslot
  unfold collect Aiocb.read
  cases hr : aio.completion with
  | none =>
    show h.uncollected n = []
    unfold uncollected Aiocb.read
    rw [hslot, Option.elim_some, hr]
    rfl
  | some r =>
    cases r with
    | failed errno =>
      dsimp only
      split_ifs
      · exact uncollected_put_self none
      · show (h.see aio).uncollected n = _
        rw [hsame, Aiocb.read, hr]
    | bytes data =>
      dsimp only
      split_ifs
      · show (h.see aio).uncollected n = _
        rw [hsame, Aiocb.read, hr]
      · exact congrArg ([data] ++ ·) (uncollected_put_self (h := h.see aio) _)
      · exact congrArg ([data] ++ ·) (uncollected_put_self (h := h.see aio) _)

/-- **A call loses nothing.**  What had been read and what is read during the call is handed out or still to
be collected. -/
theorem receiveData_collects (h0 : c.endpoint ≠ 0) (hout : c.endpoint &&& 0x80 = 0) :
    (h.receiveData c).2.toList ++ (h.receiveData c).1.uncollected (c.endpoint &&& 0x0f) =
      h.uncollected (c.endpoint &&& 0x0f) ++ h.readDuring c := by
  unfold receiveData readDuring
  rw [if_neg (not_or.2 ⟨h0, not_not.2 hout⟩)]
  dsimp only
  cases hslot : h.slots (c.endpoint &&& 0x0f) with
  | none => exact (List.append_nil _).symm
  | some aio =>
    have hbefore : h.uncollected (c.endpoint &&& 0x0f) = aio.read := by
      unfold uncollected
      rw [hslot, Option.elim_some]
    rw [hbefore]
    dsimp only
    split_ifs with hwait hfails
    · have hnone : aio.read = [] := by
        unfold Aiocb.read
        rw [Option.isNone_iff_eq_none.1 (Bool.and_eq_true_iff.1 hwait).1]
        rfl
      rw [hnone]
      exact uncollected_put_self _
    · have hnone : aio.read = [] := by
        unfold Aiocb.read
        rw [Option.isNone_iff_eq_none.1 (Bool.and_eq_true_iff.1 hwait).1]
        rfl
      rw [hnone]
      exact uncollected_collect slots_put_self
    · rw [List.append_nil]
      exact uncollected_collect hslot

theorem slots_collect_of_ne {m : Byte} (hm : m ≠ n) :
    (h.collect n aio c).1.slots m = h.slots m := by
  unfold collect
  split <;> try split_ifs
  all_goals first | rfl | exact slots_put_of_ne hm

theorem slots_receiveData_of_ne {m : Byte} (hm : m ≠ c.endpoint &&& 0x0f) :
    (h.receiveData c).1.slots m = h.slots m := by
  unfold receiveData
  by_cases hguard : c.endpoint = 0 ∨ c.endpoint &&& 0x80 ≠ 0
  · rw [if_pos hguard]
  · rw [if_neg hguard]
    dsimp only
    cases h.slots (c.endpoint &&& 0x0f) with
    | none => rfl
    | some aio =>
      dsimp only
      split_ifs
      · exact slots_put_of_ne hm
      · exact (slots_collect_of_ne hm).trans (slots_put_of_ne hm)
      · exact slots_collect_of_ne hm

end Host

end GadgetReceive

/-! ## The relay with both proxies -/

/-- `arrived` keeps the bytes of every read of the endpoint that the kernel completed, `accepted` what the
device took of every buffer sent to it. -/
structure OutboundRelay where
  relay : DataRelay
  host : Host
  arrived : List (List Byte)
  accepted : List (List Byte)

/-- A move of the relay that calls no proxy, the reader's call of `receive_data` with what the system answers
it, a step of the writer with what libusb answers the transfers of a buffer of any length, the return of
`send_wait_complete`, the completion of the endpoint's read, or an event of the other endpoints. -/
inductive OutboundMove
  | relay (m : DataMove)
  | receive (c : Call)
  | write (answers : (length : ℕ) → ℕ → TransferOutcome length)
  | wait
  | complete (r : Completion)
  | port (e : Event)

/-- The timeout of the reader's calls. -/
def READ_TIMEOUT_MS : ℤ := 1500

namespace OutboundRelay

open DeviceProxyLibUSB

def new (endpoint : Byte) (filters : List Plugin) (eps : List Byte) : OutboundRelay where
  relay := .new endpoint filters
  host := .opened eps
  arrived := []
  accepted := []

def number (s : OutboundRelay) : Byte := s.relay.endpoint &&& 0x0f

/-- The call `relay_read` makes. -/
def call (s : OutboundRelay) (c : Call) : Call :=
  { c with endpoint := s.relay.endpoint, timeout := READ_TIMEOUT_MS }

/-- An event that is not of this endpoint. -/
def Foreign (s : OutboundRelay) : Event → Bool
  | .call c => c.endpoint &&& 0x0f ≠ s.number
  | .complete n _ => n ≠ s.number

/-- `DeviceProxy_LibUSB` has the `send_wait_complete` of its base class, which returns true. -/
def step (charSigned : Bool) (device : DeviceProxyLibUSB) (attributes : Byte) (s : OutboundRelay) :
    OutboundMove → Option OutboundRelay
  | .relay m =>
    match m with
    | .receive .. | .write | .waitComplete _ => none
    | m => (s.relay.step charSigned m).map fun relay => { s with relay }
  | .receive c =>
    let (host, data) := s.host.receiveData (s.call c)
    (s.relay.step charSigned (.receive data (data.elim 0 List.length : ℕ))).map fun relay =>
      { s with relay, host, arrived := s.arrived ++ s.host.readDuring (s.call c) }
  | .write answers =>
    (s.relay.write charSigned).map fun relay =>
      { s with
        relay
        accepted := match InboundRelay.handedOver s.relay.writer relay.writer with
          | none => s.accepted
          | some p => s.accepted ++ [acceptedBy (device.sendData s.relay.endpoint attributes p.dataptr
              (answers p.payload.length))] }
  | .wait => (s.relay.step charSigned (.waitComplete true)).map fun relay => { s with relay }
  | .complete r =>
    (GadgetReceive.step s.host (.complete s.number r)).map fun host =>
      { s with host, arrived := s.arrived ++ r.read }
  | .port e =>
    if s.Foreign e then (GadgetReceive.step s.host e).map fun host => { s with host } else none

variable {charSigned : Bool} {device : DeviceProxyLibUSB} {attributes : Byte} {s t : OutboundRelay}
  {m : OutboundMove}

/-- All a step can do. -/
inductive Step (charSigned : Bool) (device : DeviceProxyLibUSB) (attributes : Byte)
    (s : OutboundRelay) : OutboundMove → OutboundRelay → Prop
  | relay {m : DataMove} {relay : DataRelay} (hm : m ≠ .write ∧ ∀ buf length, m ≠ .receive buf length)
      (h : s.relay.step charSigned m = some relay) :
      Step charSigned device attributes s (.relay m) { s with relay }
  | receive {c : Call} {relay : DataRelay}
      (h : s.relay.step charSigned (.receive (s.host.receiveData (s.call c)).2
        ((s.host.receiveData (s.call c)).2.elim 0 List.length : ℕ)) = some relay) :
      Step charSigned device attributes s (.receive c)
        { s with
          relay
          host := (s.host.receiveData (s.call c)).1
          arrived := s.arrived ++ s.host.readDuring (s.call c) }
  | quiet {answers : (length : ℕ) → ℕ → TransferOutcome length} {relay : DataRelay}
      (h : s.relay.write charSigned = some relay)
      (hnone : InboundRelay.handedOver s.relay.writer relay.writer = none) :
      Step charSigned device attributes s (.write answers) { s with relay }
  | send {answers : (length : ℕ) → ℕ → TransferOutcome length} {relay : DataRelay} {p : Packet}
      (h : s.relay.write charSigned = some relay)
      (hsome : InboundRelay.handedOver s.relay.writer relay.writer = some p) :
      Step charSigned device attributes s (.write answers)
        { s with
          relay
          accepted := s.accepted ++ [acceptedBy (device.sendData s.relay.endpoint attributes
            p.dataptr (answers p.payload.length))] }
  | wait {relay : DataRelay} (h : s.relay.step charSigned (.waitComplete true) = some relay) :
      Step charSigned device attributes s .wait { s with relay }
  | complete {r : Completion} {host : Host}
      (h : GadgetReceive.step s.host (.complete s.number r) = some host) :
      Step charSigned device attributes s (.complete r)
        { s with host, arrived := s.arrived ++ r.read }
  | port {e : Event} {host : Host} (he : s.Foreign e = true)
      (h : GadgetReceive.step s.host e = some host) :
      Step charSigned device attributes s (.port e) { s with host }

theorem step_cases (h : s.step charSigned device attributes m = some t) :
    Step charSigned device attributes s m t := by
  cases m with
  | relay m =>
    have hstep : (m ≠ .write ∧ ∀ buf length, m ≠ .receive buf length) ∧
        (s.relay.step charSigned m).map (fun relay => { s with relay }) = some t := by
      cases m <;> first | exact ⟨⟨nofun, nofun⟩, h⟩ | cases h
    obtain ⟨hm, hmap⟩ := hstep
    obtain ⟨relay, hrelay, rfl⟩ := Option.map_eq_some_iff.1 hmap
    exact .relay hm hrelay
  | receive c =>
    obtain ⟨relay, hrelay, rfl⟩ := Option.map_eq_some_iff.1 h
    exact .receive hrelay
  | write answers =>
    obtain ⟨relay, hrelay, rfl⟩ := Option.map_eq_some_iff.1 h
    cases ho : InboundRelay.handedOver s.relay.writer relay.writer with
    | none => exact .quiet hrelay ho
    | some p => exact .send hrelay ho
  | wait =>
    obtain ⟨relay, hrelay, rfl⟩ := Option.map_eq_some_iff.1 h
    exact .wait hrelay
  | complete r =>
    obtain ⟨host, hhost, rfl⟩ := Option.map_eq_some_iff.1 h
    exact .complete hhost
  | port e =>
    simp only [step] at h
    split_ifs at h with he
    obtain ⟨host, hhost, rfl⟩ := Option.map_eq_some_iff.1 h
    exact .port he hhost

/-! ## From end to end -/

/-- The move of the relay in a move, if it calls no proxy. -/
def aside : OutboundMove → Option DataMove
  | .relay m => some m
  | _ => none

/-- Room in the lane, nothing injected. -/
def Unhindered (s : OutboundRelay) (m : OutboundMove) : Prop :=
  s.relay.traffic.queue.q.length < QUEUE_MAX ∧ ∀ dm ∈ aside m, dm.injects = false

/-- The device takes what is sent to it. -/
def Takes (charSigned : Bool) (attributes : Byte) (s : OutboundRelay) : OutboundMove → Prop
  | .write answers => ∀ relay ∈ s.relay.write charSigned,
      ∀ p ∈ InboundRelay.handedOver s.relay.writer relay.writer,
        Across attributes (answers p.payload.length)
  | _ => True

/-- A read brings no more than a `wMaxPacketSize`, the size it was submitted with. -/
def Short : OutboundMove → Prop
  | .complete r => ∀ data ∈ r.read, data.length < 2 ^ 16
  | .receive c => ∀ data ∈ c.during.elim [] Completion.read, data.length < 2 ^ 16
  | _ => True

instance (s : OutboundRelay) (m : OutboundMove) : Decidable (s.Unhindered m) :=
  inferInstanceAs (Decidable (_ ∧ _))

instance (s : OutboundRelay) (m : OutboundMove) : Decidable (s.Takes charSigned attributes m) :=
  match m with
  | .write _ => inferInstanceAs (Decidable (∀ _ ∈ _, _))
  | .relay _ | .receive _ | .wait | .complete _ | .port _ => inferInstanceAs (Decidable True)

instance (m : OutboundMove) : Decidable (Short m) :=
  match m with
  | .complete _ => inferInstanceAs (Decidable (∀ _ ∈ _, _))
  | .receive _ => inferInstanceAs (Decidable (∀ _ ∈ _, _))
  | .relay _ | .write _ | .wait | .port _ => inferInstanceAs (Decidable True)

/-- Where the bytes are that have arrived, `past` being the packets the reader was brought so far. -/
structure Carries (endpoint : Byte) (s : OutboundRelay) (past : List Packet) : Prop where
  arrived : s.arrived = past.map Packet.payload ++ s.host.uncollected (endpoint &&& 0x0f)
  short : ∀ data ∈ s.arrived, data.length < 2 ^ 16
  accepted : s.accepted = s.relay.writer.sent.map Packet.payload
  transmit : ∀ p ∈ past, p.transmit = true
  delivers : s.relay.Delivers
  thins : DataRelay.Thins endpoint s.relay past
  ordered : s.relay.traffic.Ordered
  injected : s.relay.traffic.injected = []

section Carries

variable {endpoint : Byte} {past : List Packet} {relay : DataRelay} {dm : DataMove}

theorem carries_new (endpoint : Byte) (filters : List Plugin) (eps : List Byte) :
    Carries endpoint (new endpoint filters eps) [] where
  arrived := by
    show [] = [] ++ Host.uncollected _ _
    unfold Host.uncollected new Host.opened
    dsimp only
    split_ifs <;> rfl
  short := fun _ h => absurd h List.not_mem_nil
  accepted := rfl
  transmit := fun _ h => absurd h List.not_mem_nil
  delivers := DataRelay.delivers_new endpoint filters
  thins := DataRelay.thins_new endpoint filters
  ordered := Traffic.ordered_new
  injected := rfl

theorem Carries.aside (hc : Carries endpoint s past) (h : s.relay.step charSigned dm = some relay)
    (hroom : s.relay.traffic.queue.q.length < QUEUE_MAX)
    (hinjects : dm.injects = false) (harrivals : dm.arrivals endpoint = [])
    (hsent : relay.writer.sent = s.relay.writer.sent) : Carries endpoint { s with relay } past := by
  have hthins := hc.thins.step h hroom
  rw [harrivals, List.append_nil] at hthins
  exact ⟨hc.arrived, hc.short, hc.accepted.trans (congrArg _ hsent.symm), hc.transmit,
    DataRelay.step_delivers h hc.delivers, hthins, DataRelay.step_ordered h hc.ordered,
    DataRelay.step_injected h hinjects hc.injected⟩

theorem sent_write {r r' : DataRelay} (h : r.write charSigned = some r') : r'.writer.sent =
    r.writer.sent ++ (InboundRelay.handedOver r.writer r'.writer).toList := by
  rcases InboundRelay.write_events h with ⟨hnone, hevents | ⟨item, -, hevents⟩⟩ | ⟨p, hsome, -, hevents⟩
  · rw [hnone, Option.toList_none, List.append_nil]
    unfold DataWriter.sent
    rw [hevents]
  · rw [hnone]
    exact DataRelay.sent_append hevents
  · rw [hsome]
    exact DataRelay.sent_append hevents

theorem uncollected_port {e : Event} {host : Host} (he : s.Foreign e = true)
    (h : GadgetReceive.step s.host e = some host) :
    host.uncollected s.number = s.host.uncollected s.number := by
  unfold Foreign at he
  cases e with
  | call c =>
    have hne : s.number ≠ c.endpoint &&& 0x0f := fun heq => by simp [heq] at he
    rw [← Option.some.inj h]
    unfold Host.uncollected
    rw [Host.slots_receiveData_of_ne hne]
  | complete n r =>
    have hne : s.number ≠ n := fun heq => by simp [heq] at he
    obtain ⟨aio, -, hput⟩ := Option.bind_eq_some_iff.1 h
    split_ifs at hput
    rw [← Option.some.inj hput]
    exact Host.uncollected_put_of_ne hne _

theorem uncollected_complete {h host : Host} {n : Byte} {r : Completion}
    (hstep : GadgetReceive.step h (.complete n r) = some host) :
    host.uncollected n = h.uncollected n ++ r.read := by
  obtain ⟨aio, haio, hput⟩ := Option.bind_eq_some_iff.1 hstep
  split_ifs at hput with hnone
  have hempty : h.uncollected n = [] := by
    unfold Host.uncollected Aiocb.read
    rw [haio, Option.elim_some, Option.isNone_iff_eq_none.1 hnone]
    rfl
  rw [← Option.some.inj hput, hempty]
  exact Host.uncollected_put_self _

theorem readDuring_short {h : Host} {c : Call}
    (hshort : ∀ data ∈ c.during.elim [] Completion.read, data.length < 2 ^ 16) :
    ∀ data ∈ h.readDuring c, data.length < 2 ^ 16 := by
  unfold Host.readDuring
  cases h.slots (c.endpoint &&& 0x0f) with
  | none => exact fun _ hd => absurd hd List.not_mem_nil
  | some aio =>
    dsimp only
    split_ifs
    · exact hshort
    · exact fun _ hd => absurd hd List.not_mem_nil

theorem Carries.receive {c : Call} (hc : Carries endpoint s past) (h0 : endpoint ≠ 0)
    (hout : endpoint &&& 0x80 = 0) (hroom : s.relay.traffic.queue.q.length < QUEUE_MAX)
    (hshort : ∀ data ∈ c.during.elim [] Completion.read, data.length < 2 ^ 16)
    (h : s.relay.step charSigned (.receive (s.host.receiveData (s.call c)).2
      ((s.host.receiveData (s.call c)).2.elim 0 List.length : ℕ)) = some relay) :
    ∃ past, Carries endpoint
      { s with
        relay
        host := (s.host.receiveData (s.call c)).1
        arrived := s.arrived ++ s.host.readDuring (s.call c) } past := by
  have hendpoint : (s.call c).endpoint = endpoint := hc.thins.endpoint
  have hcollects := Host.receiveData_collects (h := s.host) (c := s.call c)
    (by rw [hendpoint]; exact h0) (by rw [hendpoint]; exact hout)
  rw [hendpoint] at hcollects
  have hsent : relay.writer.sent = s.relay.writer.sent := by
    unfold DataWriter.sent
    rw [(InboundRelay.relay_same ⟨DataMove.noConfusion, fun _ => DataMove.noConfusion⟩ h).2.1]
  have harrived : s.arrived ++ s.host.readDuring (s.call c) =
      past.map Packet.payload ++ ((s.host.receiveData (s.call c)).2.toList ++
        (s.host.receiveData (s.call c)).1.uncollected (endpoint &&& 0x0f)) := by
    rw [hc.arrived, hcollects, List.append_assoc]
  have hshort' : ∀ data ∈ s.arrived ++ s.host.readDuring (s.call c), data.length < 2 ^ 16 := by
    intro data hd
    rcases List.mem_append.1 hd with hd | hd
    · exact hc.short data hd
    · exact readDuring_short (c := s.call c) hshort data hd
  generalize (s.host.receiveData (s.call c)).2 = buf at h harrived
  generalize (s.host.receiveData (s.call c)).1 = host at harrived ⊢
  -- What is handed out has arrived, so its length fits `wLength`.
  have hbound : buf.elim 0 List.length < 2 ^ 16 := by
    cases buf with
    | none => exact Nat.two_pow_pos 16
    | some data =>
      apply hshort' data
      rw [harrived]
      exact List.mem_append_right _ (List.mem_append_left _ (List.mem_singleton_self data))
  have hthins := hc.thins.step h hroom
  refine ⟨_, ?_, hshort', ?_, ?_, DataRelay.step_delivers h hc.delivers, hthins,
    DataRelay.step_ordered h hc.ordered, DataRelay.step_injected h rfl hc.injected⟩
  · rw [List.map_append, List.append_assoc]
    show s.arrived ++ _ = _ ++ ((receivedPacket endpoint buf _).map Packet.payload ++ _)
    rw [InboundRelay.payload_receivedPacket endpoint hbound]
    exact harrived
  · exact hc.accepted.trans (congrArg _ hsent.symm)
  · intro p hp
    rcases List.mem_append.1 hp with hp | hp
    · exact hc.transmit p hp
    · exact DataRelay.transmit_of_mem_arrivals hp

theorem Carries.write (hc : Carries endpoint s past)
    (hroom : s.relay.traffic.queue.q.length < QUEUE_MAX) (h : s.relay.write charSigned = some relay)
    {accepted : List (List Byte)} (haccepted : accepted = s.accepted ++
      (InboundRelay.handedOver s.relay.writer relay.writer).toList.map Packet.payload) :
    Carries endpoint { s with relay, accepted } past := by
  have hstep : s.relay.step charSigned .write = some relay := h
  have hthins := hc.thins.step hstep hroom
  rw [show DataMove.write.arrivals endpoint = [] from rfl, List.append_nil] at hthins
  refine ⟨hc.arrived, hc.short, ?_, hc.transmit, DataRelay.step_delivers hstep hc.delivers,
    hthins, DataRelay.step_ordered hstep hc.ordered,
    DataRelay.step_injected hstep rfl hc.injected⟩
  rw [haccepted, hc.accepted, sent_write h, List.map_append]

theorem Carries.step (h0 : endpoint ≠ 0) (hout : endpoint &&& 0x80 = 0)
    (hclaimed : device.endpointInterfaceClaimed endpoint = true) (htype : Transfers attributes)
    (h : s.step charSigned device attributes m = some t)
    (hP : s.Unhindered m ∧ s.Takes charSigned attributes m ∧ Short m)
    (hc : Carries endpoint s past) : ∃ past, Carries endpoint t past := by
  obtain ⟨⟨hroom, haside⟩, htakes, hshort⟩ := hP
  have hnumber : s.number = endpoint &&& 0x0f := congrArg (· &&& 0x0f) hc.thins.endpoint
  cases step_cases h with
  | @relay dm relay hm hrelay =>
    have harrivals : dm.arrivals endpoint = [] := by
      cases dm with
      | receive buf length => exact absurd rfl (hm.2 buf length)
      | _ => rfl
    refine ⟨past, hc.aside hrelay hroom (haside dm rfl) harrivals ?_⟩
    by_cases hwait : ∃ done, dm = .waitComplete done
    · obtain ⟨done, rfl⟩ := hwait
      rw [(InboundRelay.waitComplete_pc hrelay).2]
      exact (DataRelay.sent_append rfl).trans (List.append_nil _)
    · unfold DataWriter.sent
      rw [(InboundRelay.relay_same ⟨hm.1, fun done hd => hwait ⟨done, hd⟩⟩ hrelay).2.1]
  | receive hrelay => exact hc.receive h0 hout hroom hshort hrelay
  | quiet hwrite hnone =>
    exact ⟨past, hc.write hroom hwrite (by rw [hnone]; exact (List.append_nil _).symm)⟩
  | @send answers relay p hwrite hsome =>
    refine ⟨past, hc.write hroom hwrite ?_⟩
    rw [hc.thins.endpoint, acceptedBy_of_across hclaimed htype (htakes relay hwrite p hsome),
      hsome]
    rfl
  | wait hrelay =>
    refine ⟨past, hc.aside hrelay hroom rfl rfl ?_⟩
    rw [(InboundRelay.waitComplete_pc hrelay).2]
    exact (DataRelay.sent_append rfl).trans (List.append_nil _)
  | @complete r host hhost =>
    refine ⟨past, ⟨?_, ?_, hc.accepted, hc.transmit, hc.delivers, hc.thins, hc.ordered,
      hc.injected⟩⟩
    · rw [hnumber] at hhost
      dsimp only
      rw [hc.arrived, uncollected_complete hhost, List.append_assoc]
    · intro data hd
      rcases List.mem_append.1 hd with hd | hd
      · exact hc.short data hd
      · exact hshort data hd
  | port he hhost =>
    refine ⟨past, ⟨?_, hc.short, hc.accepted, hc.transmit, hc.delivers, hc.thins, hc.ordered,
      hc.injected⟩⟩
    have hsame := uncollected_port he hhost
    rw [hnumber] at hsame
    rw [hsame]
    exact hc.arrived

end Carries

/-- **From the host to the device.**  On a bulk or interrupt OUT endpoint of a claimed interface, in a run with
room in the lane, nothing injected, reads below 2^16 bytes and every buffer brought across by one transfer,
whatever happens on the other endpoints and however often the reads fail, time out or cannot be submitted
again, and as long as neither thread has finished: of the buffers the kernel has read from the host, the completed read and the reader
hold the last ones, and the others, in their order and byte for byte, the device has taken, the writer holds or
the queue, but for zero-length ones directly behind another one.  With both threads waiting, nothing read and
nothing in the queue, the device has taken all of them. -/
theorem outbound_delivers (charSigned : Bool) (device : DeviceProxyLibUSB) (attributes endpoint : Byte)
    (filters : List Plugin) (eps : List Byte) (moves : List OutboundMove) (s : OutboundRelay)
    (h0 : endpoint ≠ 0) (hout : endpoint &&& 0x80 = 0)
    (hclaimed : device.endpointInterfaceClaimed endpoint = true) (htype : Transfers attributes)
    (hrun : Runs.run (step charSigned device attributes) (new endpoint filters eps) moves = some s)
    (hP : Runs.Along (step charSigned device attributes)
      (fun t m => t.Unhindered m ∧ t.Takes charSigned attributes m ∧ Short m)
      (new endpoint filters eps) moves)
    (hreader : s.relay.reader.pc ≠ .finished) (hwriter : s.relay.writer.pc ≠ .finished) :
    (∃ decided, s.arrived = decided ++ ((s.relay.reader.pc.held endpoint).map Packet.payload ++
        s.host.uncollected (endpoint &&& 0x0f)) ∧
      Thinned (· = []) decided
        (s.accepted ++ (s.relay.writer.held ++ s.relay.waiting).map Packet.payload)) ∧
    (s.relay.reader.pc = .receiving → s.host.uncollected (endpoint &&& 0x0f) = [] →
      s.relay.writer.pc = .dequeuing → s.relay.traffic.queue.q = [] →
      Thinned (· = []) s.arrived s.accepted) := by
  obtain ⟨past, hc⟩ : ∃ past, Carries endpoint s past :=
    Runs.invariant_of_along (fun s => ∃ past, Carries endpoint s past)
      (fun _ _ _ h hP hc => hc.elim fun _ hc => hc.step h0 hout hclaimed htype h hP) hP hrun
      ⟨[], carries_new endpoint filters eps⟩
  obtain ⟨decided, hpast, hthin⟩ := hc.delivers.relayed_thinned hc.thins hc.ordered hc.injected
    hc.transmit hreader hwriter
  have harrived : s.arrived = decided.map Packet.payload ++
      ((s.relay.reader.pc.held endpoint).map Packet.payload ++
        s.host.uncollected (endpoint &&& 0x0f)) := by
    rw [hc.arrived, hpast, List.map_append, List.append_assoc]
  have hthin' : Thinned (· = []) (decided.map Packet.payload)
      (s.accepted ++ (s.relay.writer.held ++ s.relay.waiting).map Packet.payload) := by
    rw [hc.accepted, ← List.map_append, ← List.append_assoc]
    exact hthin.map Packet.payload fun _ => InboundRelay.payload_of_zlp
  refine ⟨⟨_, harrived, hthin'⟩, fun hrpc hread hwpc hempty => ?_⟩
  have hheld : s.relay.writer.held = [] := DataRelay.held_of_pc (by rw [hwpc]; decide)
  have hwaiting : s.relay.waiting = [] := by
    show Lane.filled s.relay.traffic.queue.q = []
    rw [hempty]
    rfl
  rw [hheld, hwaiting, List.append_nil, List.map_nil, List.append_nil] at hthin'
  rw [harrived, hread, hrpc]
  show Thinned _ (_ ++ ([] ++ [])) _
  rw [List.append_nil, List.append_nil]
  exact hthin'

/-- The device stalls the first transfer of every buffer. -/
def stalledOnce (length attempt : ℕ) : TransferOutcome length :=
  if attempt = 0 then ⟨.pipe, 0, false⟩ else ⟨.success, Fin.last length, false⟩

/-- The reads complete with two bytes, with none and with one, while a call waits or between two of them. -/
def threeBuffers : List OutboundMove :=
  [.relay .read, .complete (.bytes [7, 8]), .receive (plainCall 0), .relay .read, .relay .read,
    .relay .read, .write stalledOnce, .write stalledOnce, .write stalledOnce, .write stalledOnce,
    .receive { plainCall 0 with during := some (.bytes []) }, .relay .read, .relay .read, .relay .read,
    .receive { plainCall 0 with suspendFails := true, during := some (.bytes [9]) }, .relay .read,
    .relay .read, .receive (plainCall 0), .relay .read, .relay .read, .relay .read,
    .write stalledOnce, .wait, .write stalledOnce, .write stalledOnce, .write stalledOnce,
    .write stalledOnce]

theorem outbound_delivers_threeBuffers :
    ∃ s, Runs.run (step true claimedOut 2) (new 0x02 [] [2]) threeBuffers = some s ∧
      s.arrived = [[7, 8], [], [9]] ∧ s.accepted = [[7, 8], []] ∧
      ∃ decided, s.arrived = decided ++ ((s.relay.reader.pc.held 0x02).map Packet.payload ++
          s.host.uncollected 2) ∧
        Thinned (· = []) decided
          (s.accepted ++ (s.relay.writer.held ++ s.relay.waiting).map Packet.payload) := by
  have hP : Runs.Along (step true claimedOut 2)
      (fun t m => t.Unhindered m ∧ t.Takes true 2 m ∧ Short m) (new 0x02 [] [2]) threeBuffers := by
    decide
  obtain ⟨hall, -⟩ := outbound_delivers true claimedOut 2 0x02 [] [2] threeBuffers _ (by decide)
    (by decide) rfl (by decide) rfl hP (by decide) (by decide)
  exact ⟨_, rfl, rfl, rfl, hall⟩

end OutboundRelay

end UsbProxy
