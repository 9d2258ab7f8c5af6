import UsbProxy.FilterDispatch
import UsbProxy.Library.Runs
import UsbProxy.SafeQueue

/-!
# The relay of one data endpoint

`RelayReader::relay_read` and `RelayWriter::relay_write` as two threads on one `SafeQueue`, with
injectors on its priority lane and threads that ask either side to stop.  A move names the thread
that goes on and what its environment answers; between two moves lies exactly one access to shared
state (a stop flag, the queue) or one call of the proxy.

`Traffic` is the queue with what has passed through it so far, and `Traffic.Ordered` the invariant
every move keeps.
-/

namespace UsbProxy

/-! ## What passes through the queue -/

/-- The queue, the packets the reader and the injectors have put in, and the packets the writer has
taken out of either lane.  A null entry is the sentinel of `please_stop`. -/
structure Traffic where
  queue : SafeQueue (Option Packet)
  relayed : List Packet
  relayedDequeued : List Packet
  injected : List Packet
  injectedDequeued : List Packet
  deriving DecidableEq, Repr

namespace Traffic

def new : Traffic :=
  { queue := .new, relayed := [], relayedDequeued := [], injected := [], injectedDequeued := [] }

/-- `_sendQueue->enqueue` of the reader. -/
def relay (t : Traffic) (p : Packet) : Traffic :=
  { t with queue := t.queue.enqueue (some p), relayed := t.relayed ++ [p] }

/-- `queue->enqueuePriority` of an injector. -/
def inject (t : Traffic) (p : Packet) : Traffic :=
  { t with queue := t.queue.enqueuePriority (some p), injected := t.injected ++ [p] }

/-- The `enqueue(PacketPtr())` of `please_stop`. -/
def wake (t : Traffic) : Traffic := { t with queue := t.queue.enqueue none }

/-- `_recvQueue->dequeue` of the writer. -/
def dequeue (t : Traffic) : Option (Option Packet × Traffic) :=
  t.queue.dequeue.map fun (item, queue) =>
    if t.queue.qPriority.isEmpty then
      (item, { t with queue, relayedDequeued := t.relayedDequeued ++ item.toList })
    else (item, { t with queue, injectedDequeued := t.injectedDequeued ++ item.toList })

/-- Both lanes deliver in order, without repetition and without inventing a packet. -/
structure Ordered (t : Traffic) : Prop where
  relayed : Lane.InOrder t.relayed t.relayedDequeued (Lane.filled t.queue.q)
  injected : Lane.InOrder t.injected t.injectedDequeued (Lane.filled t.queue.qPriority)

def RelayedLossless (t : Traffic) : Prop :=
  Lane.Lossless t.relayed t.relayedDequeued (Lane.filled t.queue.q)

def InjectedLossless (t : Traffic) : Prop :=
  Lane.Lossless t.injected t.injectedDequeued (Lane.filled t.queue.qPriority)

variable {t u : Traffic} {p : Packet} {item : Option Packet}

/-- All a dequeue can do: take from the priority lane, or from the other one when that is empty. -/
theorem dequeue_cases (h : t.dequeue = some (item, u)) :
    (∃ rest, t.queue.qPriority = item :: rest ∧
      u = { t with
        queue := { t.queue with qPriority := rest }
        injectedDequeued := t.injectedDequeued ++ item.toList }) ∨
    (∃ rest, t.queue.qPriority = [] ∧ t.queue.q = item :: rest ∧
      u = { t with
        queue := { t.queue with q := rest }
        relayedDequeued := t.relayedDequeued ++ item.toList }) := by
  simp only [dequeue, Option.map_eq_some_iff] at h
  obtain ⟨⟨item', queue⟩, hq, hu⟩ := h
  rcases SafeQueue.dequeue_cases hq with ⟨rest, hp, rfl⟩ | ⟨rest, hp, hq', rfl⟩
  · rw [if_neg (by simp [hp])] at hu
    obtain ⟨rfl, rfl⟩ := Prod.mk.inj hu
    exact .inl ⟨rest, hp, rfl⟩
  · rw [if_pos (by simp [hp])] at hu
    obtain ⟨rfl, rfl⟩ := Prod.mk.inj hu
    exact .inr ⟨rest, hp, hq', rfl⟩

theorem ordered_new : Ordered .new := ⟨List.Sublist.refl [], List.Sublist.refl []⟩

theorem Ordered.relay (h : t.Ordered) (p : Packet) : (t.relay p).Ordered := by
  unfold Traffic.relay
  rw [SafeQueue.enqueue_eq]
  exact ⟨h.relayed.offer, h.injected⟩

theorem Ordered.inject (h : t.Ordered) (p : Packet) : (t.inject p).Ordered := by
  unfold Traffic.inject
  rw [SafeQueue.enqueuePriority_eq]
  exact ⟨h.relayed, h.injected.offer⟩

theorem Ordered.wake (h : t.Ordered) : t.wake.Ordered := by
  unfold Traffic.wake
  rw [SafeQueue.enqueue_eq]
  refine ⟨?_, h.injected⟩
  show Lane.InOrder _ _ (Lane.filled (Lane.offer _ _ none))
  rw [Lane.filled_offer_none]
  exact h.relayed

theorem Ordered.dequeue (h : t.Ordered) (hd : t.dequeue = some (item, u)) : u.Ordered := by
  rcases dequeue_cases hd with ⟨rest, hp, rfl⟩ | ⟨rest, -, hq, rfl⟩
  · have := h.injected
    rw [hp] at this
    exact ⟨h.relayed, this.take⟩
  · have := h.relayed
    rw [hq] at this
    exact ⟨this.take, h.injected⟩

theorem RelayedLossless.relay (h : t.RelayedLossless) (hq : t.queue.q.length < QUEUE_MAX)
    (p : Packet) : (t.relay p).RelayedLossless := by
  unfold Traffic.relay
  rw [SafeQueue.enqueue_eq]
  exact Lane.Lossless.offer h hq

theorem RelayedLossless.inject (h : t.RelayedLossless) (p : Packet) :
    (t.inject p).RelayedLossless := by
  unfold Traffic.inject
  rw [SafeQueue.enqueuePriority_eq]
  exact h

theorem RelayedLossless.wake (h : t.RelayedLossless) : t.wake.RelayedLossless := by
  unfold Traffic.wake
  rw [SafeQueue.enqueue_eq]
  show Lane.Lossless _ _ (Lane.filled (Lane.offer _ _ none))
  rw [Lane.filled_offer_none]
  exact h

theorem RelayedLossless.dequeue (h : t.RelayedLossless) (hd : t.dequeue = some (item, u)) :
    u.RelayedLossless := by
  rcases dequeue_cases hd with ⟨rest, -, rfl⟩ | ⟨rest, -, hq, rfl⟩
  · exact h
  · unfold RelayedLossless at h
    rw [hq] at h
    exact Lane.Lossless.take h

theorem InjectedLossless.relay (h : t.InjectedLossless) (p : Packet) :
    (t.relay p).InjectedLossless := by
  unfold Traffic.relay
  rw [SafeQueue.enqueue_eq]
  exact h

theorem InjectedLossless.inject (h : t.InjectedLossless)
    (hq : t.queue.qPriority.length < QUEUE_MAX) (p : Packet) : (t.inject p).InjectedLossless := by
  unfold Traffic.inject
  rw [SafeQueue.enqueuePriority_eq]
  exact Lane.Lossless.offer h hq

theorem InjectedLossless.wake (h : t.InjectedLossless) : t.wake.InjectedLossless := by
  unfold Traffic.wake
  rw [SafeQueue.enqueue_eq]
  exact h

theorem InjectedLossless.dequeue (h : t.InjectedLossless) (hd : t.dequeue = some (item, u)) :
    u.InjectedLossless := by
  rcases dequeue_cases hd with ⟨rest, hp, rfl⟩ | ⟨rest, -, -, rfl⟩
  · unfold InjectedLossless at h
    rw [hp] at h
    exact Lane.Lossless.take h
  · exact h

end Traffic

/-! ## The two threads -/

/-- Where `relay_read` stands. -/
inductive ReaderPc
  /-- before `while (!_please_stop)` -/
  | top
  /-- in `receive_data` -/
  | receiving
  /-- after it, before the second test of the stop flag -/
  | received (buf : Option (List Byte)) (length : ℤ)
  /-- before `_sendQueue->empty()` on a zero-length packet -/
  | testing (buf : List Byte)
  /-- before `_sendQueue->enqueue` -/
  | sending (p : Packet) (zlp : Bool)
  | finished
  deriving DecidableEq, Repr

structure DataReader where
  pc : ReaderPc
  pleaseStop : Bool
  zlpCount : UInt32
  deriving DecidableEq, Repr

/-- Where `relay_write` stands. -/
inductive WriterPc
  /-- before `while (!_please_stop)` -/
  | top
  | dequeuing
  /-- after the dequeue, before the second test of the stop flag -/
  | dequeued
  /-- after the filters, before the third test -/
  | filtered
  /-- in `send_wait_complete` -/
  | waiting
  | finished
  deriving DecidableEq, Repr

/-- What the writer does to the outside, in order. -/
inductive WriterEvent
  | dequeue (p : Option Packet)
  | sendData (p : Packet)
  | waitComplete (done : Bool)
  deriving DecidableEq, Repr

structure DataWriter where
  pc : WriterPc
  pleaseStop : Bool
  writing : Bool
  p : Option Packet
  filters : List Plugin
  events : List WriterEvent

structure DataRelay where
  endpoint : Byte
  reader : DataReader
  writer : DataWriter
  traffic : Traffic

/-- One thread going on: the reader, the reader with what `receive_data` gave it, the writer, the
writer with what `send_wait_complete` returned, an injector, or `please_stop` on either side (on the
writer's it has two steps). -/
inductive DataMove
  | read
  | receive (buf : Option (List Byte)) (length : ℤ)
  | write
  | waitComplete (done : Bool)
  | inject (p : Packet)
  | stopReader
  | stopWriter
  | wakeWriter
  deriving DecidableEq, Repr

namespace DataRelay

def new (endpoint : Byte) (filters : List Plugin) : DataRelay :=
  { endpoint
    reader := { pc := .top, pleaseStop := false, zlpCount := 0 }
    writer := { pc := .top, pleaseStop := false, writing := false, p := none, filters, events := [] }
    traffic := .new }

/-- The reader up to its next access to shared state; in `receive_data` it waits. -/
def read (s : DataRelay) : Option DataRelay :=
  let r := s.reader
  match r.pc with
  | .top =>
    if r.pleaseStop then some { s with reader := { r with pc := .finished, pleaseStop := false } }
    else some { s with reader := { r with pc := .receiving } }
  | .receiving => none
  | .received buf length =>
    if r.pleaseStop then some { s with reader := { r with pc := .finished, pleaseStop := false } }
    else if length ≠ 0 then
      let p := Packet.new s.endpoint buf (UInt16.ofInt length)
      some { s with reader := { r with pc := .sending p false } }
    else match buf with
      | none => some { s with reader := { r with pc := .top } }
      | some buf =>
        if r.zlpCount = 0 then
          some { s with reader := { r with pc := .sending (Packet.new s.endpoint (some buf) 0) true } }
        else some { s with reader := { r with pc := .testing buf } }
  | .testing buf =>
    if s.traffic.queue.empty then
      some { s with reader := { r with pc := .sending (Packet.new s.endpoint (some buf) 0) true } }
    else some { s with reader := { r with pc := .top, zlpCount := r.zlpCount + 1 } }
  | .sending p zlp =>
    some { s with
      reader := { r with pc := .top, zlpCount := if zlp then r.zlpCount + 1 else 0 }
      traffic := s.traffic.relay p }
  | .finished => none

/-- The writer up to its next access to shared state; in `dequeue` on two empty lanes and in
`send_wait_complete` it waits. -/
def write (charSigned : Bool) (s : DataRelay) : Option DataRelay :=
  let w := s.writer
  match w.pc with
  | .top =>
    if w.pleaseStop then some { s with writer := { w with pc := .finished, pleaseStop := false } }
    else if w.writing then some { s with writer := { w with pc := .waiting } }
    else some { s with writer := { w with pc := .dequeuing } }
  | .dequeuing =>
    s.traffic.dequeue.map fun (p, traffic) =>
      { s with
        writer := { w with pc := .dequeued, p, events := w.events ++ [.dequeue p] }
        traffic }
  | .dequeued =>
    if w.pleaseStop then some { s with writer := { w with pc := .finished, pleaseStop := false } }
    else match w.p with
      | none => some { s with writer := { w with pc := .top } }
      | some p =>
        let r := filterStage charSigned Plugin.slot w.filters p
        some { s with writer := { w with pc := .filtered, p := some r.packet, filters := r.plugins } }
  | .filtered =>
    if w.pleaseStop then some { s with writer := { w with pc := .finished, pleaseStop := false } }
    else match w.p with
      | none => none
      | some p =>
        if p.transmit then
          some { s with writer :=
            { w with pc := .top, writing := true, events := w.events ++ [.sendData p] } }
        else some { s with writer := { w with pc := .top } }
  | .waiting => none
  | .finished => none

def step (charSigned : Bool) (s : DataRelay) : DataMove → Option DataRelay
  | .read => s.read
  | .receive buf length =>
    if s.reader.pc = .receiving then
      some { s with reader := { s.reader with pc := .received buf length } }
    else none
  | .write => s.write charSigned
  | .waitComplete done =>
    if s.writer.pc = .waiting then
      some { s with writer :=
        { s.writer with
          pc := .top, writing := !done, events := s.writer.events ++ [.waitComplete done] } }
    else none
  | .inject p => some { s with traffic := s.traffic.inject p }
  | .stopReader => some { s with reader := { s.reader with pleaseStop := true } }
  | .stopWriter => some { s with writer := { s.writer with pleaseStop := true } }
  | .wakeWriter => some { s with traffic := s.traffic.wake }

variable {charSigned : Bool} {s t : DataRelay} {m : DataMove}

/-- All the reader can do: nothing to the queue and the writer, or one `enqueue`. -/
theorem read_cases (h : s.read = some t) :
    t.writer = s.writer ∧ (t.traffic = s.traffic ∨ ∃ p, t.traffic = s.traffic.relay p) := by
  unfold read at h
  cases hpc : s.reader.pc <;> simp only [hpc, reduceCtorEq] at h
  case top => split at h <;> cases h <;> exact ⟨rfl, .inl rfl⟩
  case received =>
    repeat' split at h
    all_goals cases h; exact ⟨rfl, .inl rfl⟩
  case testing => split at h <;> cases h <;> exact ⟨rfl, .inl rfl⟩
  case sending p zlp => cases h; exact ⟨rfl, .inr ⟨p, rfl⟩⟩

/-- All the writer can do: stop, go into one of its two waits, take an entry, skip a null one, run
the filters (which leave the packet as it is), hand the packet over or withhold it. -/
inductive WriterStep (s : DataRelay) : DataRelay → Prop
  | stop : WriterStep s { s with writer := { s.writer with pc := .finished, pleaseStop := false } }
  | wait (hpc : s.writer.pc = .top) (hw : s.writer.writing = true) :
      WriterStep s { s with writer := { s.writer with pc := .waiting } }
  | next (hpc : s.writer.pc = .top) (hw : s.writer.writing = false) :
      WriterStep s { s with writer := { s.writer with pc := .dequeuing } }
  | dequeue {p : Option Packet} {traffic : Traffic} (hpc : s.writer.pc = .dequeuing)
      (hd : s.traffic.dequeue = some (p, traffic)) :
      WriterStep s { s with
        writer := { s.writer with pc := .dequeued, p, events := s.writer.events ++ [.dequeue p] }
        traffic }
  | skip (hpc : s.writer.pc = .dequeued) (hp : s.writer.p = none) :
      WriterStep s { s with writer := { s.writer with pc := .top } }
  | filter {p : Packet} (filters : List Plugin) (hpc : s.writer.pc = .dequeued)
      (hp : s.writer.p = some p) :
      WriterStep s { s with writer := { s.writer with pc := .filtered, p := some p, filters } }
  | send {p : Packet} (hpc : s.writer.pc = .filtered) (hp : s.writer.p = some p) :
      WriterStep s { s with writer :=
        { s.writer with
          pc := .top, writing := true, events := s.writer.events ++ [.sendData p] } }
  | withhold {p : Packet} (hpc : s.writer.pc = .filtered) (hp : s.writer.p = some p) :
      WriterStep s { s with writer := { s.writer with pc := .top } }

theorem write_step (h : s.write charSigned = some t) : WriterStep s t := by
  unfold write at h
  cases hpc : s.writer.pc <;> simp only [hpc] at h
  case top =>
    split_ifs at h with hs hw
    · cases h; exact .stop
    · cases h; exact .wait hpc hw
    · cases h; exact .next hpc (by simpa using hw)
  case dequeuing =>
    obtain ⟨⟨p, u⟩, hd, rfl⟩ := Option.map_eq_some_iff.1 h
    exact .dequeue hpc hd
  case dequeued =>
    split_ifs at h with hs
    · cases h; exact .stop
    · split at h
      next hp => cases h; exact .skip hpc hp
      next p hp =>
        rw [filterStage_slot_packet] at h
        cases h
        exact .filter _ hpc hp
  case filtered =>
    split_ifs at h with hs
    · cases h; exact .stop
    · split at h
      next => cases h
      next p hp =>
        split_ifs at h
        · cases h; exact .send hpc hp
        · cases h; exact .withhold hpc hp
  case waiting => cases h
  case finished => cases h

theorem WriterStep.traffic (h : WriterStep s t) :
    t.traffic = s.traffic ∨ ∃ p, s.traffic.dequeue = some (p, t.traffic) := by
  cases h with
  | dequeue _ hd => exact .inr ⟨_, hd⟩
  | _ => exact .inl rfl

/-- All a move can do to the queue. -/
theorem step_traffic (h : s.step charSigned m = some t) :
    t.traffic = s.traffic ∨ (∃ p, t.traffic = s.traffic.relay p) ∨
      (∃ p, t.traffic = s.traffic.inject p) ∨ t.traffic = s.traffic.wake ∨
      ∃ p, s.traffic.dequeue = some (p, t.traffic) := by
  cases m with
  | read => rcases (read_cases h).2 with h | h <;> simp [h]
  | write => rcases (write_step h).traffic with h | h <;> simp [h]
  | receive buf length =>
    simp only [step] at h
    split at h <;> cases h
    exact .inl rfl
  | waitComplete done =>
    simp only [step] at h
    split at h <;> cases h
    exact .inl rfl
  | inject p => cases h; exact .inr (.inr (.inl ⟨p, rfl⟩))
  | stopReader => cases h; exact .inl rfl
  | stopWriter => cases h; exact .inl rfl
  | wakeWriter => cases h; exact .inr (.inr (.inr (.inl rfl)))

theorem step_ordered (h : s.step charSigned m = some t) (ho : s.traffic.Ordered) :
    t.traffic.Ordered := by
  rcases step_traffic h with h | ⟨p, h⟩ | ⟨p, h⟩ | h | ⟨p, h⟩
  · rwa [h]
  · rw [h]; exact ho.relay p
  · rw [h]; exact ho.inject p
  · rw [h]; exact ho.wake
  · exact ho.dequeue h

theorem step_relayedLossless (h : s.step charSigned m = some t)
    (hq : s.traffic.queue.q.length < QUEUE_MAX) (hl : s.traffic.RelayedLossless) :
    t.traffic.RelayedLossless := by
  rcases step_traffic h with h | ⟨p, h⟩ | ⟨p, h⟩ | h | ⟨p, h⟩
  · rwa [h]
  · rw [h]; exact hl.relay hq p
  · rw [h]; exact hl.inject p
  · rw [h]; exact hl.wake
  · exact hl.dequeue h

theorem step_injectedLossless (h : s.step charSigned m = some t)
    (hq : s.traffic.queue.qPriority.length < QUEUE_MAX) (hl : s.traffic.InjectedLossless) :
    t.traffic.InjectedLossless := by
  rcases step_traffic h with h | ⟨p, h⟩ | ⟨p, h⟩ | h | ⟨p, h⟩
  · rwa [h]
  · rw [h]; exact hl.relay p
  · rw [h]; exact hl.inject hq p
  · rw [h]; exact hl.wake
  · exact hl.dequeue h

/-- A step that takes a relayed packet finds the priority lane empty. -/
theorem step_priority (h : s.step charSigned m = some t)
    (hne : t.traffic.relayedDequeued ≠ s.traffic.relayedDequeued) :
    s.traffic.queue.qPriority = [] := by
  rcases step_traffic h with h | ⟨p, h⟩ | ⟨p, h⟩ | h | ⟨p, h⟩
  · exact absurd (by rw [h]) hne
  · exact absurd (by rw [h]; rfl) hne
  · exact absurd (by rw [h]; rfl) hne
  · exact absurd (by rw [h]; rfl) hne
  · rcases Traffic.dequeue_cases h with ⟨rest, -, hu⟩ | ⟨rest, hp, -, -⟩
    · exact absurd (by rw [hu]) hne
    · exact hp

/-! ## The order of the writer's calls -/

end DataRelay

/-- What a writer that follows the protocol may do next: it is ready for an entry, it holds a packet
it has not handed over, or it has handed one over whose transfer is not complete. -/
inductive Phase
  | ready
  | holding (p : Packet)
  | sent
  deriving DecidableEq, Repr

/-- The protocol.  A dequeued packet is handed over once at most and as it was dequeued; from then on
nothing but `send_wait_complete` is called until that returns true. -/
def Phase.advance : Phase → WriterEvent → Option Phase
  | .ready, .dequeue none | .holding _, .dequeue none => some .ready
  | .ready, .dequeue (some p) | .holding _, .dequeue (some p) => some (.holding p)
  | .holding p, .sendData q => if q = p then some .sent else none
  | .sent, .waitComplete done => some (if done then .ready else .sent)
  | _, _ => none

/-- The writer's program counter and variables fit the phase. -/
def DataWriter.Fits (w : DataWriter) (ph : Phase) : Prop :=
  match w.pc with
  | .top => w.writing = true ↔ ph = .sent
  | .dequeuing => w.writing = false ∧ ph ≠ .sent
  | .dequeued => w.writing = false ∧ ph = w.p.elim .ready .holding
  | .filtered => w.writing = false ∧ ∃ p, w.p = some p ∧ ph = .holding p
  | .waiting => ph = .sent
  | .finished => True

/-- The calls made so far follow the protocol. -/
def DataWriter.Obeys (w : DataWriter) : Prop :=
  ∃ ph, Runs.run Phase.advance .ready w.events = some ph ∧ w.Fits ph

namespace DataRelay

variable {charSigned : Bool} {s t : DataRelay} {m : DataMove}

theorem events_append {es : List WriterEvent} {ph ph' : Phase} {e : WriterEvent}
    (h : Runs.run Phase.advance .ready es = some ph) (he : ph.advance e = some ph') :
    Runs.run Phase.advance .ready (es ++ [e]) = some ph' :=
  (Runs.run_concat_eq_some _).2 ⟨ph, h, he⟩

theorem advance_dequeue {ph : Phase} (h : ph ≠ .sent) (p : Option Packet) :
    ph.advance (.dequeue p) = some (p.elim .ready .holding) := by
  cases ph with
  | sent => exact absurd rfl h
  | ready => cases p <;> rfl
  | holding q => cases p <;> rfl

theorem WriterStep.obeys (h : WriterStep s t) (ho : s.writer.Obeys) : t.writer.Obeys := by
  obtain ⟨ph, hrun, hfit⟩ := ho
  unfold DataWriter.Fits at hfit
  cases h with
  | stop => exact ⟨ph, hrun, trivial⟩
  | wait hpc hw =>
    simp only [hpc, hw, true_iff] at hfit
    exact ⟨ph, hrun, hfit⟩
  | next hpc hw =>
    simp only [hpc, hw, Bool.false_eq_true, false_iff] at hfit
    exact ⟨ph, hrun, hw, hfit⟩
  | @dequeue p _ hpc _ =>
    simp only [hpc] at hfit
    exact ⟨_, events_append hrun (advance_dequeue hfit.2 p), hfit.1, rfl⟩
  | skip hpc hp =>
    simp only [hpc, hp, Option.elim_none] at hfit
    refine ⟨ph, hrun, ?_⟩
    show s.writer.writing = true ↔ ph = .sent
    simp [hfit.1, hfit.2]
  | filter _ hpc hp =>
    simp only [hpc, hp, Option.elim_some] at hfit
    exact ⟨ph, hrun, hfit.1, _, rfl, hfit.2⟩
  | @send p hpc hp =>
    simp only [hpc] at hfit
    obtain ⟨-, q, hq, rfl⟩ := hfit
    obtain rfl : q = p := Option.some.inj (hq.symm.trans hp)
    refine ⟨.sent, events_append hrun ?_, ?_⟩
    · simp [Phase.advance]
    · show true = true ↔ Phase.sent = .sent
      simp
  | withhold hpc hp =>
    simp only [hpc] at hfit
    obtain ⟨hw, q, -, rfl⟩ := hfit
    refine ⟨_, hrun, ?_⟩
    show s.writer.writing = true ↔ Phase.holding q = .sent
    simp [hw]

theorem waitComplete_obeys {done : Bool} (h : s.step charSigned (.waitComplete done) = some t)
    (ho : s.writer.Obeys) : t.writer.Obeys := by
  obtain ⟨ph, hrun, hfit⟩ := ho
  unfold DataWriter.Fits at hfit
  simp only [step] at h
  split_ifs at h with hpc
  cases h
  simp only [hpc] at hfit
  subst hfit
  refine ⟨if done then .ready else .sent, events_append hrun rfl, ?_⟩
  show (!done) = true ↔ (if done then Phase.ready else .sent) = .sent
  cases done <;> simp

theorem step_obeys (h : s.step charSigned m = some t) (ho : s.writer.Obeys) : t.writer.Obeys := by
  cases m with
  | read => rwa [(read_cases h).1]
  | write => exact (write_step h).obeys ho
  | waitComplete done => exact waitComplete_obeys h ho
  | receive buf length =>
    simp only [step] at h
    split_ifs at h
    cases h
    exact ho
  | inject p => cases h; exact ho
  | stopReader => cases h; exact ho
  | stopWriter => cases h; exact ho
  | wakeWriter => cases h; exact ho

/-! ## Whole runs -/

/-- **The order of a data relay.**  After any interleaving from the empty relay: the relayed packets
dequeued are a subsequence of those the reader enqueued, a prefix of them if the lane was never
full, and so are the injected ones; no relayed packet is taken while an injected one waits; and the
writer's calls follow the protocol of `Phase`. -/
theorem relay_order (charSigned : Bool) (endpoint : Byte) (filters : List Plugin)
    (moves : List DataMove) (s : DataRelay)
    (hrun : Runs.run (step charSigned) (new endpoint filters) moves = some s) :
    s.traffic.relayedDequeued.Sublist s.traffic.relayed ∧
    (Runs.Along (step charSigned) (fun t _ => t.traffic.queue.q.length < QUEUE_MAX)
      (new endpoint filters) moves → s.traffic.relayedDequeued <+: s.traffic.relayed) ∧
    s.traffic.injectedDequeued.Sublist s.traffic.injected ∧
    (Runs.Along (step charSigned) (fun t _ => t.traffic.queue.qPriority.length < QUEUE_MAX)
      (new endpoint filters) moves → s.traffic.injectedDequeued <+: s.traffic.injected) ∧
    (∀ m t, s.step charSigned m = some t →
      t.traffic.relayedDequeued ≠ s.traffic.relayedDequeued → s.traffic.queue.qPriority = []) ∧
    ∃ ph, Runs.run Phase.advance .ready s.writer.events = some ph := by
  have hord : s.traffic.Ordered :=
    Runs.invariant (fun t : DataRelay => t.traffic.Ordered)
      (fun _ _ _ h => step_ordered h) hrun Traffic.ordered_new
  refine ⟨hord.relayed.taken_sublist, fun hfull => ?_, hord.injected.taken_sublist,
    fun hfull => ?_, fun _ _ => step_priority, ?_⟩
  · have hless : s.traffic.RelayedLossless :=
      Runs.invariant_of_along (fun t : DataRelay => t.traffic.RelayedLossless)
        (fun _ _ _ h hq => step_relayedLossless h hq) hfull hrun rfl
    exact hless.taken_prefix
  · have hless : s.traffic.InjectedLossless :=
      Runs.invariant_of_along (fun t : DataRelay => t.traffic.InjectedLossless)
        (fun _ _ _ h hq => step_injectedLossless h hq) hfull hrun rfl
    exact hless.taken_prefix
  · have hobey : s.writer.Obeys :=
      Runs.invariant (fun t : DataRelay => t.writer.Obeys) (fun _ _ _ h => step_obeys h) hrun
        ⟨.ready, rfl, by simp [DataWriter.Fits, new]⟩
    obtain ⟨ph, hph, -⟩ := hobey
    exact ⟨ph, hph⟩

/-- A relayed packet is enqueued, then an injected one; the writer dequeues once. -/
def relayThenInject : List DataMove :=
  [.read, .receive (some [1]) 1, .read, .read, .inject (Packet.new 0x81 (some [2]) 1), .write, .write]

/-- The injected packet goes first, and the lanes are in order. -/
theorem relay_order_injected_first :
    ∃ s, Runs.run (step true) (new 0x81 []) relayThenInject = some s ∧
      s.traffic.injectedDequeued = [Packet.new 0x81 (some [2]) 1] ∧
      s.traffic.relayedDequeued.Sublist s.traffic.relayed :=
  ⟨_, rfl, rfl, (relay_order true 0x81 [] relayThenInject _ rfl).1⟩

end DataRelay

end UsbProxy
