import UsbProxy.GadgetWriters
import UsbProxy.RelayDelivery

/-!
# An IN endpoint from the device to the host

The relay of one IN endpoint together with the gadget proxy its writer calls: `receive_data` of the device
proxy, the queue, `send_data` and `send_wait_complete`, the kernel's writes.  The writers of the other
endpoints share the proxy.  Here the relay's writer calls the proxy whenever its code does; that it never
calls out of turn is `step_port`, by the protocol of `Phase`, so that a run of this system is one of
`GadgetSend.Writers`.
-/

namespace UsbProxy

open Thinning GadgetSend

/-- `writers` keeps for this endpoint, too, whether its writer is writing and what it handed over; nothing
here looks at that. -/
structure InboundRelay where
  relay : DataRelay
  writers : Writers

/-- A move of the relay that is not the writer's, a step of the writer with what `aio_write` would
return, a call of `send_wait_complete`, or a move of the proxy with the writers of other endpoints. -/
inductive InboundMove
  | relay (m : DataMove)
  | write (rc : Submission)
  | wait (c : Wait)
  | port (m : Move)

namespace InboundRelay

def new (endpoint : Byte) (filters : List Plugin) (eps : List Byte) : InboundRelay where
  relay := .new endpoint filters
  writers := .opened eps

def number (s : InboundRelay) : Byte := s.relay.endpoint &&& 0x0f

/-- The packet a step of the writer hands over. -/
def handedOver (before after : DataWriter) : Option Packet :=
  match after.events.drop before.events.length with
  | [.sendData p] => some p
  | _ => none

/-- `send_data` and what the ghosts make of it. -/
def send (s : InboundRelay) (p : Packet) (rc : Submission) : Writers where
  host := s.writers.host.sendData s.relay.endpoint p.payload rc
  writing := Function.update s.writers.writing s.number true
  handed := Function.update s.writers.handed s.number (s.writers.handed s.number ++ [p.payload])

/-- The writers of other endpoints. -/
def Foreign (s : InboundRelay) : Move → Bool
  | .send endpoint _ _ => endpoint &&& 0x0f ≠ s.number
  | .wait endpoint _ => endpoint &&& 0x0f ≠ s.number
  | .complete _ _ => true

def step (charSigned : Bool) (s : InboundRelay) : InboundMove → Option InboundRelay
  | .relay m =>
    match m with
    | .write | .waitComplete _ => none
    | m => (s.relay.step charSigned m).map fun relay => { s with relay }
  | .write rc =>
    (s.relay.write charSigned).map fun relay =>
      { relay
        writers := match handedOver s.relay.writer relay.writer with
          | none => s.writers
          | some p => s.send p rc }
  | .wait c =>
    let (host, done) := s.writers.host.sendWaitComplete s.relay.endpoint c
    (s.relay.step charSigned (.waitComplete done)).map fun relay =>
      { relay
        writers := { s.writers with
          host, writing := Function.update s.writers.writing s.number !done } }
  | .port m =>
    if s.Foreign m then (s.writers.step m).map fun writers => { s with writers } else none

/-! ## The protocol of the writer is the precondition of the proxy -/

/-- The relay's writer and its ghosts agree. -/
structure Linked (s : InboundRelay) : Prop where
  phase : ∃ ph, Runs.run Phase.advance .ready s.relay.writer.events = some ph ∧
    s.relay.writer.Fits ph ∧ (s.writers.writing s.number = true ↔ ph = .sent)
  handed : s.writers.handed s.number = s.relay.writer.sent.map Packet.payload

/-- The move of the proxy in a move of the system. -/
def port (charSigned : Bool) (s : InboundRelay) : InboundMove → Option Move
  | .relay _ => none
  | .write rc =>
    ((s.relay.write charSigned).bind fun relay => handedOver s.relay.writer relay.writer).map
      fun p => .send s.relay.endpoint p.payload rc
  | .wait c => some (.wait s.relay.endpoint c)
  | .port m => some m

variable {charSigned : Bool} {s t : InboundRelay} {m : InboundMove}

theorem linked_new (endpoint : Byte) (filters : List Plugin) (eps : List Byte) :
    (new endpoint filters eps).Linked :=
  ⟨⟨.ready, rfl, by simp [DataWriter.Fits, new, DataRelay.new], by simp [new, Writers.opened]⟩, rfl⟩

/-- The events of a step of the writer: none, a dequeue, or the packet handed over. -/
theorem write_events {r r' : DataRelay} (h : r.write charSigned = some r') :
    (handedOver r.writer r'.writer = none ∧
      (r'.writer.events = r.writer.events ∨ ∃ item, r.writer.pc = .dequeuing ∧
        r'.writer.events = r.writer.events ++ [.dequeue item])) ∨
    ∃ p, handedOver r.writer r'.writer = some p ∧ r.writer.pc = .filtered ∧
      r'.writer.events = r.writer.events ++ [.sendData p] := by
  have hsame : ∀ w : DataWriter, w.events = r.writer.events → handedOver r.writer w = none := by
    intro w hw
    unfold handedOver
    rw [hw, List.drop_length]
  have happend : ∀ (w : DataWriter) (e : WriterEvent), w.events = r.writer.events ++ [e] →
      w.events.drop r.writer.events.length = [e] := by
    intro w e hw
    rw [hw, List.drop_left]
  cases DataRelay.write_step h with
  | @dequeue item _ hpc _ =>
    refine .inl ⟨?_, .inr ⟨item, hpc, rfl⟩⟩
    unfold handedOver
    rw [happend _ (.dequeue item) rfl]
  | @send p hpc _ =>
    refine .inr ⟨p, ?_, hpc, rfl⟩
    unfold handedOver
    rw [happend _ (.sendData p) rfl]
  | _ => exact .inl ⟨hsame _ rfl, .inl rfl⟩

theorem write_endpoint {r r' : DataRelay} (h : r.write charSigned = some r') :
    r'.endpoint = r.endpoint := by
  cases DataRelay.write_step h <;> rfl

/-- The writer asks `send_wait_complete` behind a packet only. -/
theorem waitComplete_pc {r r' : DataRelay} {done : Bool}
    (h : r.step charSigned (.waitComplete done) = some r') : r.writer.pc = .waiting ∧
      r' = { r with writer := { r.writer with
        pc := .top, writing := !done, events := r.writer.events ++ [.waitComplete done] } } := by
  simp only [DataRelay.step] at h
  split_ifs at h with hpc
  exact ⟨hpc, (Option.some.inj h).symm⟩

/-- All a step can do. -/
inductive Step (charSigned : Bool) (s : InboundRelay) : InboundMove → InboundRelay → Prop
  | relay {m : DataMove} {relay : DataRelay} (hm : m ≠ .write ∧ ∀ done, m ≠ .waitComplete done)
      (h : s.relay.step charSigned m = some relay) : Step charSigned s (.relay m) { s with relay }
  | quiet {rc : Submission} {relay : DataRelay} (h : s.relay.write charSigned = some relay)
      (hnone : handedOver s.relay.writer relay.writer = none) :
      Step charSigned s (.write rc) { s with relay }
  | send {rc : Submission} {relay : DataRelay} {p : Packet}
      (h : s.relay.write charSigned = some relay)
      (hsome : handedOver s.relay.writer relay.writer = some p) :
      Step charSigned s (.write rc) { relay, writers := s.send p rc }
  | wait {c : Wait} {relay : DataRelay}
      (h : s.relay.step charSigned (.waitComplete
        (s.writers.host.sendWaitComplete s.relay.endpoint c).2) = some relay) :
      Step charSigned s (.wait c) { relay, writers := { s.writers with
        host := (s.writers.host.sendWaitComplete s.relay.endpoint c).1
        writing := Function.update s.writers.writing s.number
          !(s.writers.host.sendWaitComplete s.relay.endpoint c).2 } }
  | port {m : Move} {writers : Writers} (hm : s.Foreign m = true)
      (h : s.writers.step m = some writers) : Step charSigned s (.port m) { s with writers }

theorem step_cases (h : s.step charSigned m = some t) : Step charSigned s m t := by
  cases m with
  | relay m =>
    have hstep : (m ≠ .write ∧ ∀ done, m ≠ .waitComplete done) ∧
        (s.relay.step charSigned m).map (fun relay => { s with relay }) = some t := by
      cases m <;> first | exact ⟨⟨nofun, nofun⟩, h⟩ | cases h
    obtain ⟨hm, hmap⟩ := hstep
    obtain ⟨relay, hrelay, rfl⟩ := Option.map_eq_some_iff.1 hmap
    exact .relay hm hrelay
  | write rc =>
    obtain ⟨relay, hrelay, rfl⟩ := Option.map_eq_some_iff.1 h
    cases ho : handedOver s.relay.writer relay.writer with
    | none => exact .quiet hrelay ho
    | some p => exact .send hrelay ho
  | wait c =>
    obtain ⟨relay, hrelay, rfl⟩ := Option.map_eq_some_iff.1 h
    exact .wait hrelay
  | port m =>
    simp only [step] at h
    split_ifs at h with hm
    obtain ⟨writers, hwriters, rfl⟩ := Option.map_eq_some_iff.1 h
    exact .port hm hwriters

theorem relay_same {r r' : DataRelay} {m : DataMove}
    (hm : m ≠ .write ∧ ∀ done, m ≠ .waitComplete done) (h : r.step charSigned m = some r') :
    r'.endpoint = r.endpoint ∧ r'.writer.events = r.writer.events ∧
      ∀ ph, r.writer.Fits ph → r'.writer.Fits ph := by
  cases m with
  | write => exact absurd rfl hm.1
  | waitComplete done => exact absurd rfl (hm.2 done)
  | read => cases DataRelay.read_step h <;> exact ⟨rfl, rfl, fun _ hfit => hfit⟩
  | receive buf length =>
    simp only [DataRelay.step] at h
    split_ifs at h
    cases h
    exact ⟨rfl, rfl, fun _ hfit => hfit⟩
  | inject p => cases h; exact ⟨rfl, rfl, fun _ hfit => hfit⟩
  | stopReader => cases h; exact ⟨rfl, rfl, fun _ hfit => hfit⟩
  | stopWriter => cases h; exact ⟨rfl, rfl, fun _ hfit => hfit⟩
  | wakeWriter => cases h; exact ⟨rfl, rfl, fun _ hfit => hfit⟩

theorem step_endpoint (h : s.step charSigned m = some t) : t.relay.endpoint = s.relay.endpoint := by
  cases step_cases h with
  | relay hm hrelay => exact (relay_same hm hrelay).1
  | quiet hwrite _ => exact write_endpoint hwrite
  | send hwrite _ => exact write_endpoint hwrite
  | wait hdone => rw [(waitComplete_pc hdone).2]
  | port _ _ => rfl

theorem step_number (h : s.step charSigned m = some t) : t.number = s.number :=
  congrArg (· &&& 0x0f) (step_endpoint h)

theorem foreign_same {m : Move} {writers : Writers} (hm : s.Foreign m = true)
    (h : s.writers.step m = some writers) : writers.writing s.number = s.writers.writing s.number ∧
      writers.handed s.number = s.writers.handed s.number := by
  unfold Foreign at hm
  cases m with
  | send endpoint dataptr rc =>
    have hne : s.number ≠ endpoint &&& 0x0f := fun heq => by simp [heq] at hm
    obtain ⟨-, rfl⟩ := Writers.step_send h
    exact ⟨Function.update_of_ne hne .., Function.update_of_ne hne ..⟩
  | wait endpoint c =>
    have hne : s.number ≠ endpoint &&& 0x0f := fun heq => by simp [heq] at hm
    obtain ⟨-, rfl⟩ := Writers.step_wait h
    exact ⟨Function.update_of_ne hne .., rfl⟩
  | complete n r =>
    obtain ⟨host, -, rfl⟩ := Option.map_eq_some_iff.1 h
    exact ⟨rfl, rfl⟩

theorem phase_write {r r' : DataRelay} {ph : Phase} (h : r.write charSigned = some r')
    (hrun : Runs.run Phase.advance .ready r.writer.events = some ph) (hfit : r.writer.Fits ph) :
    ∃ ph', Runs.run Phase.advance .ready r'.writer.events = some ph' ∧ r'.writer.Fits ph' :=
  (DataRelay.write_step h).obeys ⟨ph, hrun, hfit⟩

/-- The log behind a dequeue: the writer has not handed anything over since. -/
theorem phase_dequeue {w w' : DataWriter} {ph ph' : Phase} {item : Option Packet}
    (hrun : Runs.run Phase.advance .ready w.events = some ph) (hfit : w.Fits ph)
    (hpc : w.pc = .dequeuing) (hevents : w'.events = w.events ++ [.dequeue item])
    (hrun' : Runs.run Phase.advance .ready w'.events = some ph') : ph ≠ .sent ∧ ph' ≠ .sent := by
  unfold DataWriter.Fits at hfit
  rw [hpc] at hfit
  refine ⟨hfit.2, ?_⟩
  rw [hevents, DataRelay.events_append hrun (DataRelay.advance_dequeue hfit.2 item)] at hrun'
  rw [← Option.some.inj hrun']
  cases item <;> exact Phase.noConfusion

theorem Linked.quiet {relay : DataRelay} (hl : s.Linked)
    (h : s.relay.write charSigned = some relay)
    (hnone : handedOver s.relay.writer relay.writer = none) : Linked { s with relay } := by
  obtain ⟨⟨ph, hrun, hfit, hlink⟩, hhanded⟩ := hl
  obtain ⟨ph', hrun', hfit'⟩ := phase_write h hrun hfit
  have hnumber : number { s with relay } = s.number := congrArg (· &&& 0x0f) (write_endpoint h)
  have hlinked : (ph' = .sent ↔ ph = .sent) → relay.writer.sent = s.relay.writer.sent →
      Linked { s with relay } := by
    intro hph hsent
    refine ⟨⟨ph', hrun', hfit', ?_⟩, ?_⟩
    · rw [hnumber, hph]
      exact hlink
    · rw [hnumber, hsent]
      exact hhanded
  rcases write_events h with ⟨-, hevents | ⟨item, hpc, hevents⟩⟩ | ⟨p, hsome, -⟩
  · rw [hevents, hrun] at hrun'
    refine hlinked (by rw [Option.some.inj hrun']) ?_
    unfold DataWriter.sent
    rw [hevents]
  · obtain ⟨hne, hne'⟩ := phase_dequeue hrun hfit hpc hevents hrun'
    refine hlinked (iff_of_false hne' hne) ?_
    exact (DataRelay.sent_append hevents).trans (List.append_nil _)
  · rw [hnone] at hsome
    cases hsome

theorem Linked.send {relay : DataRelay} {p : Packet} (hl : s.Linked) (rc : Submission)
    (h : s.relay.write charSigned = some relay)
    (hsome : handedOver s.relay.writer relay.writer = some p) :
    s.writers.writing s.number = false ∧ Linked { relay, writers := s.send p rc } := by
  obtain ⟨⟨ph, hrun, hfit, hlink⟩, hhanded⟩ := hl
  obtain ⟨ph', hrun', hfit'⟩ := phase_write h hrun hfit
  have hnumber : (relay.endpoint &&& 0x0f) = s.number := congrArg (· &&& 0x0f) (write_endpoint h)
  rcases write_events h with ⟨hnone, -⟩ | ⟨q, hq, hpc, hevents⟩
  · rw [hnone] at hsome
    cases hsome
  · obtain rfl : q = p := Option.some.inj (hq.symm.trans hsome)
    unfold DataWriter.Fits at hfit
    rw [hpc] at hfit
    obtain ⟨-, q', -, rfl⟩ := hfit
    have hidle : s.writers.writing s.number = false := by
      rw [← Bool.not_eq_true, hlink]
      exact Phase.noConfusion
    -- The log accepts the packet, so it is the one held, and a transfer is under way behind it.
    have hsent : ph' = .sent := by
      rw [hevents] at hrun'
      obtain ⟨ph₀, hrun₀, hadvance⟩ := (Runs.run_concat_eq_some _).1 hrun'
      rw [hrun] at hrun₀
      obtain rfl := Option.some.inj hrun₀
      simp only [Phase.advance] at hadvance
      split_ifs at hadvance
      exact (Option.some.inj hadvance).symm
    refine ⟨hidle, ⟨ph', hrun', hfit', ?_⟩, ?_⟩
    · show Function.update s.writers.writing s.number true (relay.endpoint &&& 0x0f) = true ↔ _
      rw [hnumber, Function.update_self, hsent]
      exact iff_of_true rfl rfl
    · show Function.update s.writers.handed s.number _ (relay.endpoint &&& 0x0f) = _
      rw [hnumber, Function.update_self, hhanded]
      show _ = relay.writer.sent.map Packet.payload
      rw [DataRelay.sent_append hevents, List.map_append]
      rfl

theorem Linked.wait {relay : DataRelay} {done : Bool} (hl : s.Linked) (host : Host)
    (h : s.relay.step charSigned (.waitComplete done) = some relay) :
    s.writers.writing s.number = true ∧ Linked { relay, writers := { s.writers with
      host, writing := Function.update s.writers.writing s.number !done } } := by
  obtain ⟨⟨ph, hrun, hfit, hlink⟩, hhanded⟩ := hl
  obtain ⟨hpc, rfl⟩ := waitComplete_pc h
  unfold DataWriter.Fits at hfit
  rw [hpc] at hfit
  obtain rfl := hfit
  have hrun' : Runs.run Phase.advance .ready (s.relay.writer.events ++ [.waitComplete done]) =
      some (if done then .ready else .sent) := DataRelay.events_append hrun rfl
  refine ⟨hlink.2 rfl, ⟨_, hrun', ?_, ?_⟩, ?_⟩
  · show (!done) = true ↔ (if done then Phase.ready else .sent) = .sent
    cases done <;> simp
  · show Function.update s.writers.writing s.number _ s.number = true ↔ _
    rw [Function.update_self]
    cases done <;> simp
  · show s.writers.handed s.number = _
    rw [hhanded]
    exact congrArg _ ((DataRelay.sent_append rfl).trans (List.append_nil _)).symm

theorem Linked.step (h : s.step charSigned m = some t) (hl : s.Linked) : t.Linked := by
  cases step_cases h with
  | quiet hwrite hnone => exact hl.quiet hwrite hnone
  | send hwrite hsome => exact (hl.send _ hwrite hsome).2
  | wait hdone => exact (hl.wait _ hdone).2
  | @relay m relay hm hrelay =>
    obtain ⟨⟨ph, hrun, hfit, hlink⟩, hhanded⟩ := hl
    obtain ⟨hendpoint, hevents, hfits⟩ := relay_same hm hrelay
    have hnumber : number { s with relay } = s.number := congrArg (· &&& 0x0f) hendpoint
    refine ⟨⟨ph, by rw [← hrun, ← hevents], hfits ph hfit, ?_⟩, ?_⟩
    · rw [hnumber]
      exact hlink
    · rw [hnumber]
      show _ = relay.writer.sent.map Packet.payload
      unfold DataWriter.sent
      rw [hevents]
      exact hhanded
  | port hm hwriters =>
    obtain ⟨⟨ph, hrun, hfit, hlink⟩, hhanded⟩ := hl
    obtain ⟨hwriting, hhanded'⟩ := foreign_same hm hwriters
    refine ⟨⟨ph, hrun, hfit, ?_⟩, ?_⟩
    · show _ = true ↔ _
      rw [← hlink, ← hwriting]
      rfl
    · exact hhanded'.trans hhanded

/-- **The writer's protocol is what the proxy needs.**  Every move of the system is a move of the proxy
with writers that send only when they are not waiting, or none. -/
theorem step_port (hin : s.relay.endpoint &&& 0x80 ≠ 0) (hl : s.Linked)
    (h : s.step charSigned m = some t) :
    match s.port charSigned m with
    | none => t.writers = s.writers
    | some mv => s.writers.step mv = some t.writers := by
  cases step_cases h with
  | relay _ _ => rfl
  | port _ hwriters => exact hwriters
  | quiet hwrite hnone =>
    simp only [port, hwrite, Option.bind_some, hnone, Option.map_none]
  | send hwrite hsome =>
    have hidle : s.writers.writing (s.relay.endpoint &&& 0x0f) = false :=
      (hl.send .accepted hwrite hsome).1
    simp only [port, hwrite, Option.bind_some, hsome, Option.map_some, Writers.step]
    rw [if_neg (not_or.2 ⟨hin, by rw [hidle]; exact Bool.false_ne_true⟩)]
    rfl
  | wait hdone =>
    have hbusy : s.writers.writing (s.relay.endpoint &&& 0x0f) = true :=
      (hl.wait s.writers.host hdone).1
    simp only [port, Writers.step]
    rw [if_neg (not_or.2 ⟨hin, by rw [hbusy]; exact Bool.noConfusion⟩)]
    rfl

/-! ## From end to end -/

/-- The move of the relay in a move of the system. -/
def under (s : InboundRelay) : InboundMove → Option DataMove
  | .relay m => some m
  | .write _ => some .write
  | .wait c => some (.waitComplete (s.writers.host.sendWaitComplete s.relay.endpoint c).2)
  | .port _ => none

theorem step_under (h : s.step charSigned m = some t) :
    match s.under m with
    | none => t.relay = s.relay
    | some dm => s.relay.step charSigned dm = some t.relay := by
  cases step_cases h with
  | relay _ hrelay => exact hrelay
  | quiet hwrite _ => exact hwrite
  | send hwrite _ => exact hwrite
  | wait hdone => exact hdone
  | port _ _ => rfl

/-- What `receive_data` gives: no buffer and no length, or a buffer of that length. -/
def Honest : InboundMove → Prop
  | .relay (.receive buf length) => length = (buf.elim 0 List.length : ℕ) ∧ length < 2 ^ 16
  | _ => True

/-- Room in the lane, nothing injected. -/
def Unhindered (s : InboundRelay) (m : InboundMove) : Prop :=
  s.relay.traffic.queue.q.length < QUEUE_MAX ∧ ∀ dm ∈ s.under m, dm.injects = false

/-- The proxy takes every packet of this endpoint. -/
def Accepts (charSigned : Bool) (s : InboundRelay) (m : InboundMove) : Prop :=
  ∀ mv ∈ s.port charSigned m, s.writers.Smooth s.number mv

instance (s : InboundRelay) (m : InboundMove) : Decidable (s.Unhindered m) :=
  inferInstanceAs (Decidable (_ ∧ _))

instance (charSigned : Bool) (s : InboundRelay) (m : InboundMove) :
    Decidable (s.Accepts charSigned m) :=
  inferInstanceAs (Decidable (∀ _ ∈ _, _))

/-- What the relay and the proxy have of the packets that arrived so far. -/
structure Carries (endpoint : Byte) (s : InboundRelay) (past : List Packet) : Prop where
  linked : s.Linked
  upToDate : s.writers.UpToDate s.number
  delivers : s.relay.Delivers
  thins : DataRelay.Thins endpoint s.relay past
  ordered : s.relay.traffic.Ordered
  injected : s.relay.traffic.injected = []

/-- What a move of the relay in it brings the reader. -/
def arrivals (endpoint : Byte) : InboundMove → List Packet
  | .relay m => m.arrivals endpoint
  | _ => []

theorem arrivals_under (s : InboundRelay) (endpoint : Byte) (m : InboundMove) :
    arrivals endpoint m = (s.under m).elim [] (DataMove.arrivals endpoint) := by
  cases m <;> rfl

theorem Carries.step {endpoint : Byte} {past : List Packet} (hin : endpoint &&& 0x80 ≠ 0)
    (h : s.step charSigned m = some t) (hP : s.Unhindered m ∧ s.Accepts charSigned m)
    (hc : Carries endpoint s past) : Carries endpoint t (past ++ arrivals endpoint m) := by
  obtain ⟨⟨hroom, hunder⟩, haccepts⟩ := hP
  have hport := step_port (by rw [hc.thins.endpoint]; exact hin) hc.linked h
  have hrelay := step_under h
  have hupToDate : t.writers.UpToDate t.number := by
    rw [step_number h]
    cases hp : s.port charSigned m with
    | none =>
      rw [hp] at hport
      rw [hport]
      exact hc.upToDate
    | some mv =>
      rw [hp] at hport
      exact hc.upToDate.step hport (haccepts mv hp)
  rw [arrivals_under s]
  cases hu : s.under m with
  | none =>
    rw [hu] at hrelay
    rw [Option.elim_none, List.append_nil]
    refine ⟨hc.linked.step h, hupToDate, ?_, ?_, ?_, ?_⟩ <;> rw [hrelay]
    exacts [hc.delivers, hc.thins, hc.ordered, hc.injected]
  | some dm =>
    rw [hu] at hrelay
    exact ⟨hc.linked.step h, hupToDate, DataRelay.step_delivers hrelay hc.delivers,
      hc.thins.step hrelay hroom, DataRelay.step_ordered hrelay hc.ordered,
      DataRelay.step_injected hrelay (hunder dm hu) hc.injected⟩

theorem carries_new {endpoint : Byte} {eps : List Byte} (hopen : endpoint &&& 0x0f ∈ eps)
    (filters : List Plugin) : Carries endpoint (new endpoint filters eps) [] where
  linked := linked_new endpoint filters eps
  upToDate := Writers.upToDate_opened hopen
  delivers := DataRelay.delivers_new endpoint filters
  thins := DataRelay.thins_new endpoint filters
  ordered := Traffic.ordered_new
  injected := rfl

/-- The buffer a move brings from the device. -/
def received : InboundMove → List (List Byte)
  | .relay (.receive buf _) => buf.toList
  | _ => []

theorem payload_of_zlp {p : Packet} (h : p.IsZlp) : p.payload = [] := by
  unfold Packet.payload
  rw [show p.wLength = 0 from h]
  rfl

def packet (endpoint : Byte) (bs : List Byte) : Packet :=
  .new endpoint (some bs) (UInt16.ofInt bs.length)

theorem payload_packet (endpoint : Byte) {bs : List Byte} (hbound : bs.length < 2 ^ 16) :
    (packet endpoint bs).payload = bs := by
  show bs.takeD (UInt16.ofInt (bs.length : ℤ)).toNat 0 = bs
  rw [toNat_ofInt_of_lt hbound, takeD_of_length_le 0 (Nat.le_refl _), Nat.sub_self,
    List.replicate_zero, List.append_nil]

theorem payload_packets (endpoint : Byte) {buffers : List (List Byte)}
    (hbound : ∀ bs ∈ buffers, bs.length < 2 ^ 16) :
    (buffers.map (packet endpoint)).map Packet.payload = buffers := by
  rw [List.map_map]
  exact (List.map_congr_left fun bs hbs => payload_packet endpoint (hbound bs hbs)).trans (List.map_id _)

theorem receivedPacket_some (endpoint : Byte) (bs : List Byte) :
    receivedPacket endpoint (some bs) (bs.length : ℕ) = [packet endpoint bs] := by
  unfold receivedPacket
  split_ifs with hlength
  · rfl
  · have hempty : bs = [] := by simpa using hlength
    rw [hempty]
    rfl

theorem payload_receivedPacket (endpoint : Byte) {buf : Option (List Byte)}
    (hbound : buf.elim 0 List.length < 2 ^ 16) :
    (receivedPacket endpoint buf (buf.elim 0 List.length : ℕ)).map Packet.payload = buf.toList := by
  cases buf with
  | none => rfl
  | some bs =>
    rw [Option.elim_some] at hbound ⊢
    rw [receivedPacket_some]
    exact congrArg (fun data => [data]) (payload_packet endpoint hbound)

theorem payload_arrivals (endpoint : Byte) (h : Honest m) :
    (arrivals endpoint m).map Packet.payload = received m := by
  cases m with
  | relay m =>
    cases m with
    | receive buf length =>
      obtain ⟨rfl, hbound⟩ := h
      exact payload_receivedPacket endpoint (by exact_mod_cast hbound)
    | _ => rfl
  | _ => rfl

/-- A writer waiting for the next packet has seen the last one written. -/
theorem Linked.idle (hl : s.Linked) (hpc : s.relay.writer.pc = .dequeuing) :
    s.writers.writing s.number = false := by
  obtain ⟨⟨ph, -, hfit, hlink⟩, -⟩ := hl
  unfold DataWriter.Fits at hfit
  rw [hpc] at hfit
  rw [← Bool.not_eq_true, hlink]
  exact hfit.2

/-- What the kernel took of this endpoint. -/
theorem Carries.taken {endpoint : Byte} {past : List Packet} (hc : Carries endpoint s past) :
    s.writers.host.taken (endpoint &&& 0x0f) = s.relay.writer.sent.map Packet.payload := by
  have hnumber : s.number = endpoint &&& 0x0f := congrArg (· &&& 0x0f) hc.thins.endpoint
  rw [← hnumber, hc.upToDate.taken, hc.linked.handed]

/-- A writer that waits at an empty lane holds nothing, and everything the kernel took is written. -/
theorem Carries.at_rest {endpoint : Byte} {past : List Packet} (hc : Carries endpoint s past)
    (hpc : s.relay.writer.pc = .dequeuing) (hempty : s.relay.traffic.queue.q = []) :
    s.relay.writer.held ++ s.relay.waiting = [] ∧ s.writers.host.taken (endpoint &&& 0x0f) =
      (s.writers.host.transfers (endpoint &&& 0x0f)).map Prod.fst := by
  have hnumber : s.number = endpoint &&& 0x0f := congrArg (· &&& 0x0f) hc.thins.endpoint
  have hdone : s.writers.host.progress s.number = none := hc.upToDate.sound.idle (hc.linked.idle hpc)
  constructor
  · rw [DataRelay.held_of_pc (by rw [hpc]; decide)]
    show Lane.filled s.relay.traffic.queue.q = []
    rw [hempty]
    rfl
  · rw [← hnumber]
    exact Host.taken_of_progress_none hdone

/-- Of what arrived so far, what the host has been sent and what the relay has. -/
theorem Carries.delivered {endpoint : Byte} {past : List Packet} (hc : Carries endpoint s past)
    (htransmit : ∀ p ∈ past, p.transmit = true) (hreader : s.relay.reader.pc ≠ .finished)
    (hwriter : s.relay.writer.pc ≠ .finished) :
    (∃ decided, past.map Packet.payload =
        decided ++ (s.relay.reader.pc.held endpoint).map Packet.payload ∧
      Thinned (· = []) decided (s.writers.host.taken (endpoint &&& 0x0f) ++
        (s.relay.writer.held ++ s.relay.waiting).map Packet.payload)) ∧
    (s.relay.reader.pc = .receiving → s.relay.writer.pc = .dequeuing →
      s.relay.traffic.queue.q = [] → Thinned (· = []) (past.map Packet.payload)
        ((s.writers.host.transfers (endpoint &&& 0x0f)).map Prod.fst)) := by
  obtain ⟨decided, hpast, hthin⟩ := hc.delivers.relayed_thinned hc.thins hc.ordered hc.injected
    htransmit hreader hwriter
  have hthin' : Thinned (· = []) (decided.map Packet.payload)
      (s.writers.host.taken (endpoint &&& 0x0f) ++
        (s.relay.writer.held ++ s.relay.waiting).map Packet.payload) := by
    rw [hc.taken, ← List.map_append, ← List.append_assoc]
    exact hthin.map Packet.payload fun _ => payload_of_zlp
  have hreceived : past.map Packet.payload =
      decided.map Packet.payload ++ (s.relay.reader.pc.held endpoint).map Packet.payload := by
    rw [hpast, List.map_append]
  refine ⟨⟨_, hreceived, hthin'⟩, fun hrpc hwpc hempty => ?_⟩
  obtain ⟨hheld, hdone⟩ := hc.at_rest hwpc hempty
  rw [hheld, List.map_nil, List.append_nil, hdone] at hthin'
  rw [hreceived, hrpc]
  show Thinned _ (_ ++ []) _
  rw [List.append_nil]
  exact hthin'

/-- **From the device to the host.**  On an IN endpoint the host opened, in a run with room in the lane, nothing
injected, buffers below 2^16 bytes with their length and every write accepted and completed without an error,
whatever the writers of the other endpoints do, and as long as neither thread has finished: of the buffers the
device gave, the reader holds the last or none, and the others, in their order and byte for byte, the host
has been sent, the writer holds or the queue, but for zero-length packets directly behind another one.  With
both threads waiting and nothing in the queue, the host has been sent all of them. -/
theorem inbound_delivers (charSigned : Bool) (endpoint : Byte) (filters : List Plugin)
    (eps : List Byte) (moves : List InboundMove) (s : InboundRelay)
    (hin : endpoint &&& 0x80 ≠ 0) (hopen : endpoint &&& 0x0f ∈ eps)
    (hrun : Runs.run (step charSigned) (new endpoint filters eps) moves = some s)
    (hP : Runs.Along (step charSigned) (fun t m => t.Unhindered m ∧ t.Accepts charSigned m)
      (new endpoint filters eps) moves)
    (hhonest : ∀ m ∈ moves, Honest m)
    (hreader : s.relay.reader.pc ≠ .finished) (hwriter : s.relay.writer.pc ≠ .finished) :
    (∃ decided, moves.flatMap received =
        decided ++ (s.relay.reader.pc.held endpoint).map Packet.payload ∧
      Thinned (· = []) decided (s.writers.host.taken (endpoint &&& 0x0f) ++
        (s.relay.writer.held ++ s.relay.waiting).map Packet.payload)) ∧
    (s.relay.reader.pc = .receiving → s.relay.writer.pc = .dequeuing →
      s.relay.traffic.queue.q = [] → Thinned (· = []) (moves.flatMap received)
        ((s.writers.host.transfers (endpoint &&& 0x0f)).map Prod.fst)) := by
  have hc : Carries endpoint s ([] ++ moves.flatMap (arrivals endpoint)) :=
    Runs.invariant_of_history (Carries endpoint) (fun _ _ _ _ h hP hc => hc.step hin h hP) hP hrun
      (carries_new hopen filters)
  rw [List.nil_append] at hc
  have htransmit : ∀ p ∈ moves.flatMap (arrivals endpoint), p.transmit = true := by
    intro p hp
    obtain ⟨m, -, hp⟩ := List.mem_flatMap.1 hp
    cases m with
    | relay m => exact DataRelay.transmit_of_mem_arrivals (m := m) hp
    | _ => exact absurd hp List.not_mem_nil
  have hreceived : (moves.flatMap (arrivals endpoint)).map Packet.payload =
      moves.flatMap received := by
    rw [List.map_flatMap]
    exact List.flatMap_congr fun m hm => payload_arrivals endpoint (hhonest m hm)
  rw [← hreceived]
  exact hc.delivered htransmit hreader hwriter

/-- Two packets with two zero-length ones between them, of which the second comes when the first is still in
the queue; then the writer sends what there is, while the write on another endpoint fails by a shutdown. -/
def fourBuffers : List InboundMove :=
  [.relay .read, .relay (.receive (some [7, 8]) 2), .relay .read, .relay .read,
    .relay .read, .relay (.receive (some []) 0), .relay .read, .relay .read,
    .relay .read, .relay (.receive (some []) 0), .relay .read, .relay .read,
    .relay .read, .relay (.receive (some [9]) 1), .relay .read, .relay .read, .relay .read,
    .port (.send 0x82 [5] .accepted)] ++
  [2, 0, 1].flatMap (fun rc => List.replicate 5 (.write .accepted) ++
    [.wait ⟨500, some (.wrote rc), false, false⟩]) ++
  [.port (.wait 0x82 ⟨500, some (.failed GadgetReceive.ESHUTDOWN), false, false⟩), .write .accepted]

theorem inbound_delivers_fourBuffers :
    ∃ s, Runs.run (step true) (new 0x81 [] [1, 2]) fourBuffers = some s ∧
      fourBuffers.flatMap received = [[7, 8], [], [], [9]] ∧
      (s.writers.host.transfers 1).map Prod.fst = [[7, 8], [], [9]] ∧
      Thinned (· = []) (fourBuffers.flatMap received) ((s.writers.host.transfers 1).map Prod.fst) := by
  have hP : Runs.Along (step true) (fun t m => t.Unhindered m ∧ t.Accepts true m)
      (new 0x81 [] [1, 2]) fourBuffers := by decide
  have hhonest : ∀ m ∈ fourBuffers, Honest m := by simp [fourBuffers, Honest]
  obtain ⟨-, hall⟩ := inbound_delivers true 0x81 [] [1, 2] fourBuffers _ (by decide) (by decide) rfl
    hP hhonest (by decide) (by decide)
  exact ⟨_, rfl, rfl, rfl, hall rfl rfl rfl⟩

end InboundRelay

end UsbProxy
