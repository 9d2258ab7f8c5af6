import Mathlib.Data.Multiset.AddSub
import UsbProxy.SafeQueue
import UsbProxy.SetupRelay

/-!
# The relay of the control endpoint

`RelayReader::relay_read_setup` and `RelayWriter::relay_write_setup` as two threads on two queues:
`_readersend` carries requests to the writer, `_writersend` carries replies back.  Injectors on
endpoint 0 reach the priority lanes of both, and either thread can be asked to stop.  A move names
the thread that goes on and what its environment answers; between two moves lies exactly one access
to shared state or one call of a proxy.

Nothing in a setup packet says whom its reply is for (`source` is never read), so every entry here
also carries where it comes from, which no thread looks at.
-/

namespace UsbProxy

/-! ## What the queues hold -/

/-- Where a setup packet comes from: the host's requests are numbered. -/
inductive Origin
  | host (k : ℕ)
  | injected
  deriving DecidableEq, Repr

/-- An entry of `_readersend` or `_writersend`: the null pointer of `please_stop`, a plain `Packet`,
or a `SetupPacket`. -/
inductive Entry
  | null
  | packet (p : Packet)
  | setup (s : SetupPacket) (origin : Origin)
  deriving DecidableEq, Repr

/-- The host requests a setup packet stems from: one, or none. -/
def Origin.hosts : Origin → Multiset ℕ
  | host k => {k}
  | injected => 0

def Entry.hosts : Entry → Multiset ℕ
  | null | packet _ => 0
  | setup _ origin => origin.hosts

/-! ## The two threads -/

/-- What the host proxy's `control_request` comes back with. -/
inductive HostRequest
  | setup (r : CtrlRequest) (buf : Option (List Byte))
  | disconnect
  | connect
  | other
  deriving DecidableEq, Repr

inductive ControlReaderPc
  /-- before `while (!_please_stop)` -/
  | top
  /-- in `hostProxy->control_request` -/
  | requesting
  /-- after it, before the test of the stop flag -/
  | requested (rc : HostRequest)
  /-- before `_sendQueue->enqueue` -/
  | enqueuing (s : SetupPacket)
  /-- in `_recvQueue->dequeue` -/
  | dequeuing
  /-- after it, before the test of the stop flag -/
  | dequeued (e : Entry)
  /-- behind the reply, before the last test of the stop flag -/
  | replied
  /-- in `send_wait_complete` -/
  | completing
  | finished
  deriving DecidableEq, Repr

structure ControlReader where
  pc : ControlReaderPc
  pleaseStop : Bool
  directionOut : Bool
  p : Option SetupPacket
  deriving DecidableEq, Repr

inductive ControlWriterPc
  /-- before `while (!_please_stop)` -/
  | top
  /-- in `_recvQueue->dequeue` -/
  | dequeuing
  /-- after it, before the test of the stop flag -/
  | dequeued (e : Entry)
  /-- before the filters and the transfer -/
  | handling (s : SetupPacket) (origin : Origin)
  /-- before `_sendQueue->enqueue` -/
  | enqueuing (s : SetupPacket) (origin : Origin)
  | finished
  deriving DecidableEq, Repr

structure ControlWriter where
  pc : ControlWriterPc
  pleaseStop : Bool
  state : SetupWriter

/-- The reply the host gets for a packet. -/
inductive Answer
  | sendData (bytes : List Byte)
  | controlAck
  | stallEp
  deriving DecidableEq, Repr

def SetupPacket.answer (s : SetupPacket) : Answer :=
  if s.transmitIn then if s.ctrlReq.wLength ≠ 0 then .sendData s.dataRead else .controlAck
  else .stallEp

/-- What passes between the host and the reader, in order. -/
inductive ControlEvent
  | request (k : ℕ) (r : CtrlRequest)
  | reply (origin : Origin) (a : Answer)
  deriving DecidableEq, Repr

structure ControlRelay where
  reader : ControlReader
  writer : ControlWriter
  readersend : SafeQueue Entry
  writersend : SafeQueue Entry
  /-- How many host requests have been handed on, the number of the next one. -/
  count : ℕ
  log : List ControlEvent

/-- One thread going on: the reader, the reader with what `control_request` or `send_wait_complete`
gave it, the writer, the writer with the device's answer, an injector, or `please_stop` on either
side, in two steps. -/
inductive ControlMove
  | read
  | hostRequest (rc : HostRequest)
  | sendComplete (done : Bool)
  | write
  | transfer (o : Outcome)
  | injectSetup (s : SetupPacket)
  | injectPacket (p : Packet)
  | stopReader
  | wakeReader
  | stopWriter
  | wakeWriter
  deriving DecidableEq, Repr

namespace ControlRelay

def new (filters : List Plugin) (length : ℤ) (device : Device) : ControlRelay where
  reader := { pc := .top, pleaseStop := false, directionOut := true, p := none }
  writer :=
    { pc := .top, pleaseStop := false, state := { filters, length, manager := .new device } }
  readersend := .new
  writersend := .new
  count := 0
  log := []

/-- The reader up to its next access to shared state; in `control_request`, in `dequeue` on two
empty lanes and in `send_wait_complete` it waits.  `hostDisconnectNotification` calls `stopEps`. -/
def read (s : ControlRelay) : Option ControlRelay :=
  let r := s.reader
  match r.pc with
  | .top =>
    if r.pleaseStop then some { s with reader := { r with pc := .finished, pleaseStop := false } }
    else if r.directionOut then some { s with reader := { r with pc := .requesting } }
    else if r.p.isNone then some { s with reader := { r with pc := .dequeuing } }
    else some { s with reader := { r with pc := .replied } }
  | .requesting => none
  | .requested rc =>
    if r.pleaseStop then some { s with reader := { r with pc := .finished, pleaseStop := false } }
    else match rc with
      | .setup ctrlReq buf => some { s with reader := { r with pc := .enqueuing (.new ctrlReq buf) } }
      | .disconnect =>
        if s.writer.state.manager.stopEps = .returns then some { s with reader := { r with pc := .top } }
        else none
      | .connect | .other => some { s with reader := { r with pc := .top } }
  | .enqueuing p =>
    some { s with
      reader := { r with pc := .top, directionOut := false }
      readersend := s.readersend.enqueue (.setup p (.host s.count))
      count := s.count + 1 }
  | .dequeuing =>
    s.writersend.dequeue.map fun (e, writersend) =>
      { s with reader := { r with pc := .dequeued e }, writersend }
  | .dequeued e =>
    if r.pleaseStop then some { s with reader := { r with pc := .finished, pleaseStop := false } }
    else match e with
      | .null | .packet _ => some { s with reader := { r with pc := .top } }
      | .setup p origin =>
        some { s with
          reader := { r with pc := .replied, p := some p }
          log := s.log ++ [.reply origin p.answer] }
  | .replied =>
    if r.pleaseStop then some { s with reader := { r with pc := .finished, pleaseStop := false } }
    else some { s with reader := { r with pc := .completing } }
  | .completing => none
  | .finished => none

/-- `control_request` of the host proxy comes back. -/
def hostRequest (s : ControlRelay) (rc : HostRequest) : Option ControlRelay :=
  if s.reader.pc = .requesting then
    some { s with
      reader := { s.reader with pc := .requested rc }
      log := match rc with
        | .setup r _ => s.log ++ [.request s.count r]
        | .disconnect | .connect | .other => s.log }
  else none

/-- `send_wait_complete` comes back. -/
def sendComplete (s : ControlRelay) (done : Bool) : Option ControlRelay :=
  if s.reader.pc = .completing then
    if done then some { s with reader := { s.reader with pc := .top, directionOut := true, p := none } }
    else some { s with reader := { s.reader with pc := .top } }
  else none

/-- The writer up to its next access to shared state; in `dequeue` on two empty lanes it waits. -/
def write (s : ControlRelay) : Option ControlRelay :=
  let w := s.writer
  match w.pc with
  | .top =>
    if w.pleaseStop then some { s with writer := { w with pc := .finished, pleaseStop := false } }
    else some { s with writer := { w with pc := .dequeuing } }
  | .dequeuing =>
    s.readersend.dequeue.map fun (e, readersend) =>
      { s with writer := { w with pc := .dequeued e }, readersend }
  | .dequeued e =>
    if w.pleaseStop then some { s with writer := { w with pc := .finished, pleaseStop := false } }
    else match e with
      | .null | .packet _ => some { s with writer := { w with pc := .top } }
      | .setup p origin => some { s with writer := { w with pc := .handling p origin } }
  | .handling .. => none
  | .enqueuing p origin =>
    some { s with
      writer := { w with pc := .top }
      writersend := s.writersend.enqueue (.setup p origin) }
  | .finished => none

/-- The round of the packet in the writer's hands.  A round that does not come back ends the
process. -/
def transfer (s : ControlRelay) (o : Outcome) : Option ControlRelay :=
  match s.writer.pc with
  | .handling p origin =>
    let report := relayWriteSetup s.writer.state p o
    if report.ending = .returns then
      match report.reply with
      | none => some { s with writer := { s.writer with pc := .top, state := report.writer } }
      | some p' =>
        some { s with writer := { s.writer with pc := .enqueuing p' origin, state := report.writer } }
    else none
  | _ => none

/-- An injector's plain packet, sorted by its endpoint address. -/
def injectPacket (s : ControlRelay) (p : Packet) : ControlRelay :=
  if p.bEndpoint &&& 0x0f ≠ 0 then s
  else if p.bEndpoint &&& 0x80 ≠ 0 then
    { s with writersend := s.writersend.enqueuePriority (.packet p) }
  else { s with readersend := s.readersend.enqueuePriority (.packet p) }

def step (s : ControlRelay) : ControlMove → Option ControlRelay
  | .read => s.read
  | .hostRequest rc => s.hostRequest rc
  | .sendComplete done => s.sendComplete done
  | .write => s.write
  | .transfer o => s.transfer o
  | .injectSetup p => some { s with readersend := s.readersend.enqueuePriority (.setup p .injected) }
  | .injectPacket p => some (s.injectPacket p)
  | .stopReader => some { s with reader := { s.reader with pleaseStop := true } }
  | .wakeReader => some { s with writersend := s.writersend.enqueue .null }
  | .stopWriter => some { s with writer := { s.writer with pleaseStop := true } }
  | .wakeWriter => some { s with readersend := s.readersend.enqueue .null }

variable {s t : ControlRelay}

/-! ## What a step can do -/

/-- All the reader can do between two calls of the host proxy. -/
inductive ReadStep (s : ControlRelay) : ControlRelay → Prop
  | stop (hstop : s.reader.pleaseStop = true) :
      ReadStep s { s with reader := { s.reader with pc := .finished, pleaseStop := false } }
  | listen (hpc : s.reader.pc = .top) (hdir : s.reader.directionOut = true) :
      ReadStep s { s with reader := { s.reader with pc := .requesting } }
  | await (hpc : s.reader.pc = .top) (hdir : s.reader.directionOut = false)
      (hp : s.reader.p = none) : ReadStep s { s with reader := { s.reader with pc := .dequeuing } }
  | again (hpc : s.reader.pc = .top) (hdir : s.reader.directionOut = false)
      (hp : s.reader.p ≠ none) : ReadStep s { s with reader := { s.reader with pc := .replied } }
  | accept {r : CtrlRequest} {buf : Option (List Byte)}
      (hpc : s.reader.pc = .requested (.setup r buf)) :
      ReadStep s { s with reader := { s.reader with pc := .enqueuing (.new r buf) } }
  | pass {rc : HostRequest} (hpc : s.reader.pc = .requested rc) (hrc : ∀ r buf, rc ≠ .setup r buf) :
      ReadStep s { s with reader := { s.reader with pc := .top } }
  | handOn {p : SetupPacket} (hpc : s.reader.pc = .enqueuing p) :
      ReadStep s { s with
        reader := { s.reader with pc := .top, directionOut := false }
        readersend := s.readersend.enqueue (.setup p (.host s.count))
        count := s.count + 1 }
  | take {e : Entry} {writersend : SafeQueue Entry} (hpc : s.reader.pc = .dequeuing)
      (hd : s.writersend.dequeue = some (e, writersend)) :
      ReadStep s { s with reader := { s.reader with pc := .dequeued e }, writersend }
  | skip {e : Entry} (hpc : s.reader.pc = .dequeued e) (he : ∀ p origin, e ≠ .setup p origin) :
      ReadStep s { s with reader := { s.reader with pc := .top } }
  | reply {p : SetupPacket} {origin : Origin} (hpc : s.reader.pc = .dequeued (.setup p origin)) :
      ReadStep s { s with
        reader := { s.reader with pc := .replied, p := some p }
        log := s.log ++ [.reply origin p.answer] }
  | settle (hpc : s.reader.pc = .replied) :
      ReadStep s { s with reader := { s.reader with pc := .completing } }

theorem read_step (h : s.read = some t) : ReadStep s t := by
  unfold read at h
  cases hpc : s.reader.pc <;> simp only [hpc, reduceCtorEq] at h
  case top =>
    split_ifs at h with hs hdir hp <;> cases h
    · exact .stop hs
    · exact .listen hpc hdir
    · exact .await hpc (by simpa using hdir) (by simpa using hp)
    · exact .again hpc (by simpa using hdir) (by simpa using hp)
  case requested rc =>
    split at h
    next hs => cases h; exact .stop hs
    next =>
      cases rc <;> simp only at h
      case setup r buf => cases h; exact .accept hpc
      case disconnect => split_ifs at h; cases h; exact .pass hpc (by simp)
      case connect => cases h; exact .pass hpc (by simp)
      case other => cases h; exact .pass hpc (by simp)
  case enqueuing p => cases h; exact .handOn hpc
  case dequeuing =>
    obtain ⟨⟨e, q⟩, hd, rfl⟩ := Option.map_eq_some_iff.1 h
    exact .take hpc hd
  case dequeued e =>
    split_ifs at h with hs
    · cases h; exact .stop hs
    · cases e <;> simp only at h
      case null => cases h; exact .skip hpc (by simp)
      case packet => cases h; exact .skip hpc (by simp)
      case setup p origin => cases h; exact .reply hpc
  case replied =>
    split_ifs at h with hs <;> cases h
    · exact .stop hs
    · exact .settle hpc

/-- All the writer can do between two transfers. -/
inductive WriteStep (s : ControlRelay) : ControlRelay → Prop
  | stop (hstop : s.writer.pleaseStop = true) :
      WriteStep s { s with writer := { s.writer with pc := .finished, pleaseStop := false } }
  | next (hpc : s.writer.pc = .top) :
      WriteStep s { s with writer := { s.writer with pc := .dequeuing } }
  | take {e : Entry} {readersend : SafeQueue Entry} (hpc : s.writer.pc = .dequeuing)
      (hd : s.readersend.dequeue = some (e, readersend)) :
      WriteStep s { s with writer := { s.writer with pc := .dequeued e }, readersend }
  | skip {e : Entry} (hpc : s.writer.pc = .dequeued e) (he : ∀ p origin, e ≠ .setup p origin) :
      WriteStep s { s with writer := { s.writer with pc := .top } }
  | handle {p : SetupPacket} {origin : Origin} (hpc : s.writer.pc = .dequeued (.setup p origin)) :
      WriteStep s { s with writer := { s.writer with pc := .handling p origin } }
  | handBack {p : SetupPacket} {origin : Origin} (hpc : s.writer.pc = .enqueuing p origin) :
      WriteStep s { s with
        writer := { s.writer with pc := .top }
        writersend := s.writersend.enqueue (.setup p origin) }

theorem write_step (h : s.write = some t) : WriteStep s t := by
  unfold write at h
  cases hpc : s.writer.pc <;> simp only [hpc, reduceCtorEq] at h
  case top =>
    split_ifs at h with hs <;> cases h
    · exact .stop hs
    · exact .next hpc
  case dequeuing =>
    obtain ⟨⟨e, q⟩, hd, rfl⟩ := Option.map_eq_some_iff.1 h
    exact .take hpc hd
  case dequeued e =>
    split_ifs at h with hs
    · cases h; exact .stop hs
    · cases e <;> simp only at h
      case null => cases h; exact .skip hpc (by simp)
      case packet => cases h; exact .skip hpc (by simp)
      case setup p origin => cases h; exact .handle hpc
  case enqueuing p origin => cases h; exact .handBack hpc

/-- All a transfer can do: discard the packet in the writer's hands, or leave it with its reply. -/
inductive TransferStep (s : ControlRelay) : ControlRelay → Prop
  | discard {p : SetupPacket} {origin : Origin} (state : SetupWriter)
      (hpc : s.writer.pc = .handling p origin) (hreq : s.writer.state.request p = none) :
      TransferStep s { s with writer := { s.writer with pc := .top, state } }
  | relay {p : SetupPacket} {origin : Origin} (p' : SetupPacket) (state : SetupWriter)
      (hpc : s.writer.pc = .handling p origin) (hreq : s.writer.state.request p ≠ none) :
      TransferStep s { s with writer := { s.writer with pc := .enqueuing p' origin, state } }

theorem transfer_step {o : Outcome} (h : s.transfer o = some t) : TransferStep s t := by
  unfold transfer at h
  cases hpc : s.writer.pc <;> simp only [hpc, reduceCtorEq] at h
  case handling p origin =>
    split_ifs at h with hend
    have hiff := (relayWriteSetup_round s.writer.state p o).reply_eq_none_iff hend
    cases hreply : (relayWriteSetup s.writer.state p o).reply with
    | none =>
      rw [hreply] at h
      cases h
      exact .discard _ hpc (hiff.1 hreply)
    | some p' =>
      rw [hreply] at h
      cases h
      exact .relay p' _ hpc fun hnone => by simp [hiff.2 hnone] at hreply

end ControlRelay

end UsbProxy
