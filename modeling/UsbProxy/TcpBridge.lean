import UsbProxy.InboundRelay
import UsbProxy.TcpReads

/-!
# An IN endpoint across two programs

The near program has the device and `HostProxy_TCP`, the far one `DeviceProxy_TCP` and the gadget proxy.  The
near writer hands its packets to the connection of the endpoint, and the far reader makes a packet of whatever
one `read` returns; each program relays as it always does.  `bridge_delivers` says what the host gets: the bytes
of the device, in packets of TCP's making.

The two programs may run on different machines, so each has its own `char`.
-/

namespace UsbProxy

open Streams Thinning GadgetSend

structure TcpBridge where
  near : DataRelay
  wire : Stream Byte
  far : InboundRelay

/-- A move of the near relay that is not its writer's, a step of the near writer with the number of bytes
`write` takes of a packet, the return of `send_wait_complete`, the far reader's call of `receive_data`, or any
other move of the far relay with its proxy. -/
inductive BridgeMove
  | near (m : DataMove)
  | write (nbytes : ℕ)
  | wait
  | read (r : SocketRead)
  | far (m : InboundMove)

/-- The near program's `char`, the far one's, and what the far one's `realloc` makes of the size 0. -/
structure Machines where
  nearSigned : Bool
  farSigned : Bool
  keepsEmpty : Bool

/-- The reader's call of `receive_data` behind a read. -/
def SocketRead.move (keepsEmpty : Bool) (r : SocketRead) : DataMove :=
  .receive (r.receiveData keepsEmpty).1 (r.receiveData keepsEmpty).2

/-- What a read leaves of a stream; one that returns 0 bytes it has at no time, for neither end is closed. -/
def SocketRead.takenFrom (wire : Stream Byte) : SocketRead → Option (Stream Byte)
  | idle | failure => some wire
  | bytes bs _ =>
    if wire.inFlight.take bs.length = bs then Streams.step TCP_BUFFER_SIZE wire (.read bs.length) else none

namespace TcpBridge

def new (endpoint : Byte) (filters filters' : List Plugin) (eps : List Byte) : TcpBridge where
  near := .new endpoint filters
  wire := .empty
  far := .new endpoint filters' eps

def step (on : Machines) (s : TcpBridge) : BridgeMove → Option TcpBridge
  | .near m =>
    match m with
    | .write | .waitComplete _ => none
    | m => (s.near.step on.nearSigned m).map fun near => { s with near }
  | .write nbytes =>
    (s.near.write on.nearSigned).bind fun near =>
      match InboundRelay.handedOver s.near.writer near.writer with
      | none => some { s with near }
      | some p =>
        (Streams.step TCP_BUFFER_SIZE s.wire (.write
          ((HostProxyTCP.sendData s.near.endpoint p.payload).take nbytes))).map fun wire =>
            { s with near, wire }
  | .wait => (s.near.step on.nearSigned (.waitComplete true)).map fun near => { s with near }
  | .read r =>
    (r.takenFrom s.wire).bind fun wire =>
      (s.far.step on.farSigned (.relay (r.move on.keepsEmpty))).map fun far => { s with wire, far }
  | .far m =>
    match m with
    | .relay (.receive ..) => none
    | m => (s.far.step on.farSigned m).map fun far => { s with far }

variable {on : Machines} {s t : TcpBridge} {m : BridgeMove} {endpoint : Byte} {past : List Packet}

/-- All a step can do. -/
inductive Step (on : Machines) (s : TcpBridge) : BridgeMove → TcpBridge → Prop
  | near {m : DataMove} {near : DataRelay} (hm : m ≠ .write ∧ ∀ done, m ≠ .waitComplete done)
      (h : s.near.step on.nearSigned m = some near) : Step on s (.near m) { s with near }
  | quiet {nbytes : ℕ} {near : DataRelay} (h : s.near.write on.nearSigned = some near)
      (hnone : InboundRelay.handedOver s.near.writer near.writer = none) :
      Step on s (.write nbytes) { s with near }
  | send {nbytes : ℕ} {near : DataRelay} {p : Packet} {wire : Stream Byte}
      (h : s.near.write on.nearSigned = some near)
      (hsome : InboundRelay.handedOver s.near.writer near.writer = some p)
      (hwire : Streams.step TCP_BUFFER_SIZE s.wire (.write
        ((HostProxyTCP.sendData s.near.endpoint p.payload).take nbytes)) = some wire) :
      Step on s (.write nbytes) { s with near, wire }
  | wait {near : DataRelay} (h : s.near.step on.nearSigned (.waitComplete true) = some near) :
      Step on s .wait { s with near }
  | read {r : SocketRead} {wire : Stream Byte} {far : InboundRelay} (hwire : r.takenFrom s.wire = some wire)
      (h : s.far.step on.farSigned (.relay (r.move on.keepsEmpty)) = some far) :
      Step on s (.read r) { s with wire, far }
  | far {m : InboundMove} {far : InboundRelay} (hm : ∀ buf length, m ≠ .relay (.receive buf length))
      (h : s.far.step on.farSigned m = some far) : Step on s (.far m) { s with far }

theorem step_cases (h : s.step on m = some t) : Step on s m t := by
  cases m with
  | near m =>
    have hstep : (m ≠ .write ∧ ∀ done, m ≠ .waitComplete done) ∧
        (s.near.step on.nearSigned m).map (fun near => { s with near }) = some t := by
      cases m <;> first | exact ⟨⟨nofun, nofun⟩, h⟩ | cases h
    obtain ⟨hm, hmap⟩ := hstep
    obtain ⟨near, hnear, rfl⟩ := Option.map_eq_some_iff.1 hmap
    exact .near hm hnear
  | write nbytes =>
    obtain ⟨near, hnear, hrest⟩ := Option.bind_eq_some_iff.1 h
    cases ho : InboundRelay.handedOver s.near.writer near.writer with
    | none =>
      rw [ho] at hrest
      obtain rfl := Option.some.inj hrest
      exact .quiet hnear ho
    | some p =>
      rw [ho] at hrest
      obtain ⟨wire, hwire, rfl⟩ := Option.map_eq_some_iff.1 hrest
      exact .send hnear ho hwire
  | wait =>
    obtain ⟨near, hnear, rfl⟩ := Option.map_eq_some_iff.1 h
    exact .wait hnear
  | read r =>
    obtain ⟨wire, hwire, hrest⟩ := Option.bind_eq_some_iff.1 h
    obtain ⟨far, hfar, rfl⟩ := Option.map_eq_some_iff.1 hrest
    exact .read hwire hfar
  | far m =>
    have hstep : (∀ buf length, m ≠ .relay (.receive buf length)) ∧
        (s.far.step on.farSigned m).map (fun far => { s with far }) = some t := by
      cases m with
      | relay m => cases m <;> first | exact ⟨nofun, h⟩ | cases h
      | _ => exact ⟨nofun, h⟩
    obtain ⟨hm, hmap⟩ := hstep
    obtain ⟨far, hfar, rfl⟩ := Option.map_eq_some_iff.1 hmap
    exact .far hm hfar

/-! ## The runs in question -/

/-- The move of the near relay in a move of the bridge. -/
def under : BridgeMove → Option DataMove
  | .near m => some m
  | .write _ => some .write
  | .wait => some (.waitComplete true)
  | _ => none

/-- The move of the far relay. -/
def beyond (keepsEmpty : Bool) : BridgeMove → Option InboundMove
  | .read r => some (.relay (r.move keepsEmpty))
  | .far m => some m
  | _ => none

/-- Both lanes have room, neither counter of zero-length packets wraps, nothing is injected, and the far proxy
takes every packet of this endpoint. -/
def Unhindered (on : Machines) (s : TcpBridge) (m : BridgeMove) : Prop :=
  (∀ dm ∈ under m, s.near.traffic.queue.q.length < QUEUE_MAX ∧ dm.injects = false) ∧
    ∀ fm ∈ beyond on.keepsEmpty m, s.far.Unhindered fm ∧ s.far.Accepts on.farSigned fm

/-- `write` takes the whole packet, and no `read` fails. -/
def Unbroken (s : TcpBridge) : BridgeMove → Prop
  | .write nbytes => s.near.writer.pc = .filtered → ∀ p ∈ s.near.writer.p, p.payload.length ≤ nbytes
  | .read r => 0 ≤ r.count
  | _ => True

/-- What `receive_data` of the device's proxy gives. -/
def Honest : BridgeMove → Prop
  | .near m => InboundRelay.Honest (.relay m)
  | _ => True

instance (s : TcpBridge) (m : BridgeMove) : Decidable (s.Unhindered on m) :=
  inferInstanceAs (Decidable (_ ∧ _))

instance (s : TcpBridge) (m : BridgeMove) : Decidable (s.Unbroken m) :=
  match m with
  | .write _ => inferInstanceAs (Decidable (_ → ∀ _ ∈ _, _))
  | .read _ => inferInstanceAs (Decidable (_ ≤ _))
  | .near _ | .wait | .far _ => isTrue trivial

/-- The packets that arrive from the device. -/
def arrivals (endpoint : Byte) : BridgeMove → List Packet
  | .near m => m.arrivals endpoint
  | _ => []

/-- The buffers that arrive from it. -/
def received : BridgeMove → List (List Byte)
  | .near m => InboundRelay.received (.relay m)
  | _ => []

/-! ## Where the bytes are -/

/-- The near relay has what arrived from the device, the stream what the near writer handed over, and the far
relay with its proxy what was read. -/
structure Carries (endpoint : Byte) (s : TcpBridge) (past : List Packet) : Prop where
  delivers : s.near.Delivers
  thins : DataRelay.Thins endpoint s.near past
  ordered : s.near.traffic.Ordered
  injected : s.near.traffic.injected = []
  sound : Streams.Sound TCP_BUFFER_SIZE s.wire
  writes : s.wire.writes = s.near.writer.sent.map Packet.payload
  far : InboundRelay.Carries endpoint s.far (s.wire.reads.map (InboundRelay.packet endpoint))

theorem carries_new {eps : List Byte} (hopen : endpoint &&& 0x0f ∈ eps) (filters filters' : List Plugin) :
    Carries endpoint (new endpoint filters filters' eps) [] where
  delivers := DataRelay.delivers_new endpoint filters
  thins := DataRelay.thins_new endpoint filters
  ordered := Traffic.ordered_new
  injected := rfl
  sound := sound_empty
  writes := rfl
  far := InboundRelay.carries_new hopen filters'

theorem Carries.near (dm : DataMove) {near : DataRelay} {wire : Stream Byte} (hc : Carries endpoint s past)
    (h : s.near.step on.nearSigned dm = some near)
    (hP : s.near.traffic.queue.q.length < QUEUE_MAX ∧ dm.injects = false)
    (hsound : Streams.Sound TCP_BUFFER_SIZE wire) (hreads : wire.reads = s.wire.reads)
    (hwrites : wire.writes = near.writer.sent.map Packet.payload) :
    Carries endpoint { s with near, wire } (past ++ dm.arrivals endpoint) where
  delivers := DataRelay.step_delivers h hc.delivers
  thins := hc.thins.step h hP.1
  ordered := DataRelay.step_ordered h hc.ordered
  injected := DataRelay.step_injected h hP.2 hc.injected
  sound := hsound
  writes := hwrites
  far := by
    dsimp only
    rw [hreads]
    exact hc.far

theorem Carries.quiet (dm : DataMove) {near : DataRelay} (hc : Carries endpoint s past)
    (h : s.near.step on.nearSigned dm = some near)
    (hP : s.near.traffic.queue.q.length < QUEUE_MAX ∧ dm.injects = false)
    (hsent : near.writer.sent = s.near.writer.sent) :
    Carries endpoint { s with near } (past ++ dm.arrivals endpoint) :=
  hc.near dm h hP hc.sound rfl (by rw [hsent]; exact hc.writes)

theorem sent_congr {w w' : DataWriter} (h : w'.events = w.events) : w'.sent = w.sent := by
  unfold DataWriter.sent
  rw [h]

theorem sent_quiet {near : DataRelay} (h : s.near.write on.nearSigned = some near)
    (hnone : InboundRelay.handedOver s.near.writer near.writer = none) :
    near.writer.sent = s.near.writer.sent := by
  rcases InboundRelay.write_events h with ⟨-, hevents | ⟨item, -, hevents⟩⟩ | ⟨p, hsome, -⟩
  · exact sent_congr hevents
  · exact (DataRelay.sent_append hevents).trans (List.append_nil _)
  · rw [hnone] at hsome
    cases hsome

theorem sent_send {near : DataRelay} {p : Packet} (h : s.near.write on.nearSigned = some near)
    (hsome : InboundRelay.handedOver s.near.writer near.writer = some p) :
    (s.near.writer.pc = .filtered ∧ s.near.writer.p = some p) ∧
      near.writer.sent = s.near.writer.sent ++ [p] := by
  rcases InboundRelay.write_events h with ⟨hnone, -⟩ | ⟨q, hq, hpc, hevents⟩
  · rw [hnone] at hsome
    cases hsome
  · obtain rfl : q = p := Option.some.inj (hq.symm.trans hsome)
    refine ⟨⟨hpc, ?_⟩, DataRelay.sent_append hevents⟩
    cases DataRelay.write_step h with
    | send _ hp =>
      cases List.append_cancel_left hevents
      exact hp
    | stop | withhold => simp at hevents
    | wait hpc' | next hpc' | dequeue hpc' | skip hpc' | filter _ hpc' =>
      rw [hpc] at hpc'
      cases hpc'

/-- A read that did not fail takes from the stream what arrives at the far reader. -/
theorem takenFrom_arrivals (keepsEmpty : Bool) (endpoint : Byte) {r : SocketRead} {wire wire' : Stream Byte}
    (hcount : 0 ≤ r.count) (h : r.takenFrom wire = some wire') : wire'.writes = wire.writes ∧
      wire'.reads.map (InboundRelay.packet endpoint) = wire.reads.map (InboundRelay.packet endpoint) ++
        InboundRelay.arrivals endpoint (.relay (r.move keepsEmpty)) := by
  cases r with
  | idle =>
    obtain rfl := Option.some.inj h
    exact ⟨rfl, (List.append_nil _).symm⟩
  | failure => exact absurd hcount (by decide)
  | bytes bs hle =>
    unfold SocketRead.takenFrom at h
    dsimp only at h
    split_ifs at h with htake
    obtain ⟨⟨hpos, -, -⟩, rfl⟩ := step_read_eq_some.1 h
    refine ⟨rfl, ?_⟩
    have hfailed : (SocketRead.bytes bs hle).receiveData keepsEmpty ≠ (none, -1) := by
      rw [receiveData_bytes]
      intro heq
      have hlength := congrArg Prod.snd heq
      simp only at hlength
      omega
    have hbs : ¬ (bs = [] ∧ keepsEmpty = false) := fun hnil => by
      rw [hnil.1] at hpos
      exact absurd hpos (lt_irrefl 0)
    show _ = _ ++ receivedPacket endpoint _ _
    rw [receivedPacket_eq hfailed, SocketRead.packet, if_neg hbs, List.map_append, htake]
    rfl

theorem sound_takenFrom {r : SocketRead} {wire wire' : Stream Byte} (hs : Streams.Sound TCP_BUFFER_SIZE wire)
    (h : r.takenFrom wire = some wire') : Streams.Sound TCP_BUFFER_SIZE wire' := by
  cases r with
  | idle => exact Option.some.inj h ▸ hs
  | failure => exact Option.some.inj h ▸ hs
  | bytes bs hle =>
    unfold SocketRead.takenFrom at h
    dsimp only at h
    split_ifs at h
    exact hs.step h

theorem Carries.step (hin : endpoint &&& 0x80 ≠ 0) (h : s.step on m = some t)
    (hP : s.Unhindered on m ∧ s.Unbroken m) (hc : Carries endpoint s past) :
    Carries endpoint t (past ++ arrivals endpoint m) := by
  obtain ⟨⟨hunder, hbeyond⟩, hunbroken⟩ := hP
  cases step_cases h with
  | @near dm near hm hnear =>
    exact hc.quiet dm hnear (hunder dm rfl) (sent_congr (InboundRelay.relay_same hm hnear).2.1)
  | quiet hnear hnone => exact hc.quiet .write hnear (hunder .write rfl) (sent_quiet hnear hnone)
  | @send nbytes near p wire hnear hsome hwire =>
    obtain ⟨⟨hpc, hp⟩, hsent⟩ := sent_send hnear hsome
    have hzero : s.near.endpoint ≠ 0 := by
      rw [hc.thins.endpoint]
      rintro rfl
      exact hin rfl
    have hdata : (HostProxyTCP.sendData s.near.endpoint p.payload).take nbytes = p.payload := by
      rw [HostProxyTCP.sendData, if_neg hzero]
      exact List.take_of_length_le (hunbroken hpc p hp)
    rw [hdata] at hwire
    have hsound := hc.sound.step hwire
    cases hwire
    refine hc.near .write hnear (hunder .write rfl) hsound rfl ?_
    dsimp only
    rw [hsent, hc.writes, List.map_append]
    rfl
  | wait hnear =>
    obtain ⟨-, rfl⟩ := InboundRelay.waitComplete_pc hnear
    exact hc.quiet (.waitComplete true) hnear (hunder _ rfl) ((DataRelay.sent_append rfl).trans (List.append_nil _))
  | @read r wire far hwire hfar =>
    obtain ⟨hwrites, hreads⟩ := takenFrom_arrivals on.keepsEmpty endpoint hunbroken hwire
    have hstep := hc.far.step hin hfar (hbeyond _ rfl)
    rw [← hreads] at hstep
    rw [show arrivals endpoint (.read r) = [] from rfl, List.append_nil]
    exact ⟨hc.delivers, hc.thins, hc.ordered, hc.injected, sound_takenFrom hc.sound hwire,
      hwrites.trans hc.writes, hstep⟩
  | @far fm far hm hfar =>
    have hstep := hc.far.step hin hfar (hbeyond fm rfl)
    have hnone : InboundRelay.arrivals endpoint fm = [] := by
      cases fm with
      | relay dm => cases dm <;> first | rfl | exact absurd rfl (hm _ _)
      | _ => rfl
    rw [hnone, List.append_nil] at hstep
    rw [show arrivals endpoint (.far fm) = [] from rfl, List.append_nil]
    exact ⟨hc.delivers, hc.thins, hc.ordered, hc.injected, hc.sound, hc.writes, hstep⟩

end TcpBridge

/-- The bytes between the two proxies of a relay. -/
def DataRelay.inHand (s : DataRelay) : List Byte :=
  ((s.writer.held ++ s.waiting ++ s.reader.pc.held s.endpoint).map Packet.payload).flatten

theorem DataRelay.Delivers.bytes {s : DataRelay} {endpoint : Byte} {past : List Packet}
    (h : s.Delivers) (hthins : Thins endpoint s past) (hordered : s.traffic.Ordered)
    (hinjected : s.traffic.injected = []) (htransmit : ∀ p ∈ past, p.transmit = true)
    (hreader : s.reader.pc ≠ .finished) (hwriter : s.writer.pc ≠ .finished) :
    (past.map Packet.payload).flatten = (s.writer.sent.map Packet.payload).flatten ++ s.inHand ∧
      s.writer.sent.Sublist past := by
  obtain ⟨decided, hpast, hthin⟩ :=
    h.relayed_thinned hthins hordered hinjected htransmit hreader hwriter
  have hbytes := (hthin.map Packet.payload fun _ => InboundRelay.payload_of_zlp).flatten
  constructor
  · unfold inHand
    rw [hpast, List.map_append, List.flatten_append, ← hbytes, hthins.endpoint]
    simp only [List.map_append, List.flatten_append, List.append_assoc]
  · rw [hpast]
    refine List.Sublist.trans ?_ (hthin.sublist.trans (List.sublist_append_left _ _))
    rw [List.append_assoc]
    exact List.sublist_append_left _ _

namespace TcpBridge

variable {on : Machines} {s t : TcpBridge} {endpoint : Byte} {past : List Packet}

/-- No thread has ended. -/
def Going (s : TcpBridge) : Prop :=
  (s.near.reader.pc ≠ .finished ∧ s.near.writer.pc ≠ .finished) ∧
    s.far.relay.reader.pc ≠ .finished ∧ s.far.relay.writer.pc ≠ .finished

/-- Both readers are in `receive_data`, both writers wait at an empty lane, and nothing is on its way. -/
def AtRest (s : TcpBridge) : Prop :=
  (s.near.reader.pc = .receiving ∧ s.near.writer.pc = .dequeuing ∧ s.near.traffic.queue.q = []) ∧
    (s.far.relay.reader.pc = .receiving ∧ s.far.relay.writer.pc = .dequeuing ∧
      s.far.relay.traffic.queue.q = []) ∧ s.wire.inFlight = []

theorem inHand_at_rest {r : DataRelay} (hreader : r.reader.pc = .receiving)
    (hwriter : r.writer.pc = .dequeuing) (hempty : r.traffic.queue.q = []) : r.inHand = [] := by
  have hwaiting : r.waiting = [] := by
    show Lane.filled r.traffic.queue.q = []
    rw [hempty]
    rfl
  unfold DataRelay.inHand
  rw [DataRelay.held_of_pc (by rw [hwriter]; decide), hwaiting, hreader]
  rfl

theorem Carries.payload_reads (hc : Carries endpoint s past) :
    (s.wire.reads.map (InboundRelay.packet endpoint)).map Packet.payload = s.wire.reads :=
  InboundRelay.payload_packets endpoint fun bs hbs =>
    Nat.lt_of_le_of_lt (hc.sound.fits bs hbs) (by decide)

/-- The far half: what was read is what the kernel took and what the relay has, and what the kernel took are
whole reads. -/
theorem Carries.reads (hc : Carries endpoint s past) (hgoing : s.Going) :
    s.wire.reads.flatten =
        (s.far.writers.host.taken (endpoint &&& 0x0f)).flatten ++ s.far.relay.inHand ∧
      (s.far.writers.host.taken (endpoint &&& 0x0f)).Sublist s.wire.reads := by
  have htransmit : ∀ p ∈ s.wire.reads.map (InboundRelay.packet endpoint), p.transmit = true := by
    intro p hp
    obtain ⟨bs, -, rfl⟩ := List.mem_map.1 hp
    rfl
  obtain ⟨hbytes, hsub⟩ := hc.far.delivers.bytes hc.far.thins hc.far.ordered hc.far.injected
    htransmit hgoing.2.1 hgoing.2.2
  have hmap := hsub.map Packet.payload
  rw [hc.payload_reads] at hbytes hmap
  rw [hc.far.taken]
  exact ⟨hbytes, hmap⟩

/-- The bytes that arrived, from the host's end back to the device's. -/
theorem Carries.bytes (hc : Carries endpoint s past) (htransmit : ∀ p ∈ past, p.transmit = true)
    (hgoing : s.Going) : (past.map Packet.payload).flatten =
      (s.far.writers.host.taken (endpoint &&& 0x0f)).flatten ++ s.far.relay.inHand ++
        s.wire.inFlight ++ s.near.inHand :=
  calc (past.map Packet.payload).flatten
    _ = s.wire.writes.flatten ++ s.near.inHand := by
        rw [hc.writes]
        exact (hc.delivers.bytes hc.thins hc.ordered hc.injected htransmit hgoing.1.1 hgoing.1.2).1
    _ = s.wire.reads.flatten ++ s.wire.inFlight ++ s.near.inHand := by rw [hc.sound.conserved]
    _ = _ := by rw [(hc.reads hgoing).1]

/-- **From the device to the host over TCP.**  On an IN endpoint the host opened, in a run with room in both
lanes, nothing injected, buffers below 2^16 bytes with their length, every packet written whole, no failed read
and every write of the gadget proxy accepted and completed without an error, as long as no thread has
finished: the bytes the device gave are, in order, those
the host was sent, those the far relay has, those on their way and those the near relay has.  The host gets no
zero-length packet and none of more than 1456 bytes.  At rest it has been sent everything. -/
theorem bridge_delivers (on : Machines) (endpoint : Byte) (filters filters' : List Plugin)
    (eps : List Byte) (moves : List BridgeMove) (s : TcpBridge)
    (hin : endpoint &&& 0x80 ≠ 0) (hopen : endpoint &&& 0x0f ∈ eps)
    (hrun : Runs.run (step on) (new endpoint filters filters' eps) moves = some s)
    (hP : Runs.Along (step on) (fun t m => t.Unhindered on m ∧ t.Unbroken m)
      (new endpoint filters filters' eps) moves)
    (hhonest : ∀ m ∈ moves, Honest m) (hgoing : s.Going) :
    (moves.flatMap received).flatten =
        (s.far.writers.host.taken (endpoint &&& 0x0f)).flatten ++ s.far.relay.inHand ++
          s.wire.inFlight ++ s.near.inHand ∧
      (∀ buf ∈ s.far.writers.host.taken (endpoint &&& 0x0f),
        buf ≠ [] ∧ buf.length ≤ TCP_BUFFER_SIZE) ∧
      (s.AtRest → (moves.flatMap received).flatten =
        ((s.far.writers.host.transfers (endpoint &&& 0x0f)).map Prod.fst).flatten) := by
  have hc : Carries endpoint s ([] ++ moves.flatMap (arrivals endpoint)) :=
    Runs.invariant_of_history (Carries endpoint) (fun _ _ _ _ h hP hc => hc.step hin h hP) hP hrun
      (carries_new hopen filters filters')
  rw [List.nil_append] at hc
  have htransmit : ∀ p ∈ moves.flatMap (arrivals endpoint), p.transmit = true := by
    intro p hp
    obtain ⟨m, -, hp⟩ := List.mem_flatMap.1 hp
    cases m with
    | near m => exact DataRelay.transmit_of_mem_arrivals (m := m) hp
    | _ => exact absurd hp List.not_mem_nil
  have hreceived : (moves.flatMap (arrivals endpoint)).map Packet.payload = moves.flatMap received := by
    rw [List.map_flatMap]
    refine List.flatMap_congr fun m hm => ?_
    cases m with
    | near m => exact InboundRelay.payload_arrivals endpoint (m := .relay m) (hhonest _ hm)
    | _ => rfl
  have hbytes := hc.bytes htransmit hgoing
  rw [hreceived] at hbytes
  refine ⟨hbytes, fun buf hbuf => ?_, fun hrest => ?_⟩
  · have hread := (hc.reads hgoing).2.subset hbuf
    exact ⟨hc.sound.nonempty buf hread, hc.sound.fits buf hread⟩
  · obtain ⟨⟨hreader, hwriter, hempty⟩, ⟨hreader', hwriter', hempty'⟩, hwire⟩ := hrest
    rw [hbytes, hwire, inHand_at_rest hreader hwriter hempty, inHand_at_rest hreader' hwriter' hempty',
      (hc.far.at_rest hwriter' hempty').2]
    simp only [List.append_nil]

/-- A packet of three bytes and a zero-length one, of which the far program reads two bytes and one. -/
def splitPacket : List BridgeMove :=
  [.near .read, .near (.receive (some [7, 8, 9]) 3), .near .read, .near .read, .near .read,
    .near (.receive (some []) 0), .near .read, .near .read, .near .read] ++
  [.write 0, .write 0, .write 0, .write 3, .write 0, .wait, .write 0, .write 0, .write 0, .write 0, .write 0,
    .wait, .write 0] ++
  ([⟨[7, 8], by decide⟩, ⟨[9], by decide⟩] : List {bs : List Byte // bs.length ≤ TCP_BUFFER_SIZE}).flatMap
    (fun bs => [.far (.relay .read), .read (.bytes bs.1 bs.2), .far (.relay .read), .far (.relay .read),
      .far (.write .accepted), .far (.write .accepted), .far (.write .accepted), .far (.write .accepted),
      .far (.write .accepted), .far (.wait ⟨500, some (.wrote bs.1.length), false, false⟩)]) ++
  [.far (.write .accepted), .far (.relay .read)]

theorem bridge_delivers_splitPacket :
    ∃ s, Runs.run (step ⟨true, false, false⟩) (new 0x81 [] [] [1]) splitPacket = some s ∧
      (s.far.writers.host.transfers 1).map Prod.fst = [[7, 8], [9]] ∧
      (splitPacket.flatMap received).flatten =
        ((s.far.writers.host.transfers 1).map Prod.fst).flatten := by
  have hP : Runs.Along (step ⟨true, false, false⟩)
      (fun t m => t.Unhindered ⟨true, false, false⟩ m ∧ t.Unbroken m) (new 0x81 [] [] [1]) splitPacket := by
    decide
  have hhonest : ∀ m ∈ splitPacket, Honest m := by simp [splitPacket, Honest, InboundRelay.Honest]
  obtain ⟨-, -, hrest⟩ := bridge_delivers ⟨true, false, false⟩ 0x81 [] [] [1] splitPacket _ (by decide)
    (by decide) rfl hP hhonest ⟨⟨by decide, by decide⟩, by decide, by decide⟩
  exact ⟨_, rfl, rfl, hrest ⟨⟨rfl, rfl, rfl⟩, ⟨rfl, rfl, rfl⟩, rfl⟩⟩

end TcpBridge

end UsbProxy
