import UsbProxy.Library.Streams
import UsbProxy.Packet

/-!
# Data endpoints over TCP

A data endpoint has a connection of its own.  `send_data` writes the bytes of a packet and nothing else,
and `receive_data` hands the relay whatever one `read` into a buffer of 1456 bytes returns, so the
boundaries of the packets are those of the reads.  Stated for either proxy as the sender.
-/

namespace UsbProxy

open Streams

def TCP_BUFFER_SIZE : ℕ := 1456

/-! ## The bytes of a packet -/

/-- `HostProxy_TCP::send_data`: a reply on endpoint 0 has a status byte and its length in front. -/
def HostProxyTCP.sendData (endpoint : Byte) (data : List Byte) : List Byte :=
  if endpoint = 0 then
    [0, UInt8.ofNat (data.length / 256), UInt8.ofNat (data.length % 256)] ++ data
  else data

def DeviceProxyTCP.sendData (_ : Byte) (data : List Byte) : List Byte := data

/-- The two ends of a TCP relay. -/
inductive TcpEnd
  | host
  | device
  deriving DecidableEq, Repr

/-- What one end writes to the connection of an endpoint. -/
def TcpEnd.sendData : TcpEnd → Byte → List Byte → List Byte
  | .host => HostProxyTCP.sendData
  | .device => DeviceProxyTCP.sendData

/-! ## A connection -/

namespace DataLink

/-- What happens on a connection: `send_data` of a packet, or `receive_data` with the number of bytes
its `read` returns, `none` when `poll` times out. -/
inductive Event
  | sendData (data : List Byte)
  | receiveData (nbytes : Option ℕ)

/-- The bytes that are written for an event, or the number that is read. -/
def Event.move (sender : TcpEnd) (endpoint : Byte) : Event → Move Byte
  | .sendData data => .write (sender.sendData endpoint data)
  | .receiveData (some nbytes) => .read nbytes
  | .receiveData none => .wait

/-- The packets one end passes to `send_data`. -/
def sent (events : List Event) : List (List Byte) :=
  events.filterMap fun
    | .sendData data => some data
    | .receiveData _ => none

/-- The connection behind the events; its reads are the results of `receive_data`. -/
def run (sender : TcpEnd) (endpoint : Byte) (events : List Event) : Option (Stream Byte) :=
  Runs.run (step TCP_BUFFER_SIZE) Stream.empty (events.map (Event.move sender endpoint))

variable {sender : TcpEnd} {endpoint : Byte} {events : List Event} {t : Stream Byte}

theorem sendData_of_ne_zero (h : endpoint ≠ 0) (data : List Byte) :
    sender.sendData endpoint data = data := by
  cases sender with
  | host => exact if_neg h
  | device => rfl

/-- A data endpoint's connection gets the packets as they are. -/
theorem writes_run (h : endpoint ≠ 0) (hrun : run sender endpoint events = some t) :
    t.writes = sent events := by
  have hgrow : ∀ (events : List Event) (s t : Stream Byte),
      Runs.run (step TCP_BUFFER_SIZE) s (events.map (Event.move sender endpoint)) = some t →
        t.writes = s.writes ++ sent events := by
    intro events
    induction events with
    | nil =>
      rintro s t hrun
      rw [← Option.some.inj hrun]
      exact (List.append_nil _).symm
    | cons event events ih =>
      intro s t hrun
      obtain ⟨m, hm, ht⟩ := (Runs.run_cons_eq_some _).1 hrun
      rw [ih m t ht]
      cases event with
      | sendData data =>
        cases hm
        show s.writes ++ [sender.sendData endpoint data] ++ sent events = _
        rw [sendData_of_ne_zero h, List.append_assoc]
        rfl
      | receiveData nbytes =>
        cases nbytes with
        | none =>
          cases hm
          rfl
        | some n =>
          obtain ⟨-, rfl⟩ := step_read_eq_some.1 hm
          rfl
  exact hgrow events _ t hrun

theorem run_sendThenReceive (h : endpoint ≠ 0) {packets reads : List (List Byte)}
    (hcut : Segments TCP_BUFFER_SIZE reads packets.flatten) :
    run sender endpoint (packets.map .sendData ++ reads.map fun r => .receiveData (some r.length)) =
      some { inFlight := [], writes := packets, reads } := by
  rw [← run_segments hcut]
  unfold run
  congr 1
  rw [List.map_append, List.map_map, List.map_map]
  congr 2
  funext data
  exact congrArg Move.write (sendData_of_ne_zero h data)

/-- **Packet boundaries in a run.**  When everything was received, the results of `receive_data` are the
packets sent exactly when every packet has 1 to 1456 bytes and every `read` returned the oldest packet
not received yet, no more and no less. -/
theorem delivered_run_iff (h : endpoint ≠ 0) (hrun : run sender endpoint events = some t)
    (hdry : t.inFlight = []) :
    t.reads = sent events ↔ Runs.Along (step TCP_BUFFER_SIZE) (Whole TCP_BUFFER_SIZE) Stream.empty
      (events.map (Event.move sender endpoint)) := by
  rw [← writes_run h hrun]
  exact reads_eq_writes_iff hrun hdry

/-- **Packet boundaries.**  However TCP splits and merges the bytes, what is received is what was sent,
only for a sequence of packets with one byte in all. -/
theorem delivered_iff (sender : TcpEnd) (endpoint : Byte) (h : endpoint ≠ 0)
    (packets : List (List Byte)) :
    (∀ events t, sent events = packets → run sender endpoint events = some t → t.inFlight = [] →
      t.reads = packets) ↔ packets = [] ∨ ∃ b, packets = [[b]] := by
  rw [← forall_segments_iff (show 1 < TCP_BUFFER_SIZE by decide)]
  constructor
  · intro hall reads hcut
    refine hall _ _ ?_ (run_sendThenReceive h hcut) rfl
    unfold sent
    rw [List.filterMap_append, List.filterMap_map, List.filterMap_map]
    simp only [Function.comp_def, List.filterMap_some, List.filterMap_none, List.append_nil]
  · rintro hcuts events t rfl hrun hdry
    refine hcuts _ ?_
    rw [← writes_run h hrun]
    exact (sound_empty.run hrun).segments hdry

/-- One keystroke over the wire. -/
theorem delivered_iff_single : (0x81 : Byte) ≠ 0 ∧
    ((∀ events t, sent events = [[4]] → run .device 0x81 events = some t → t.inFlight = [] →
      t.reads = [[4]]) ↔ ([[4]] : List (List Byte)) = [] ∨ ∃ b, ([[4]] : List (List Byte)) = [[b]]) :=
  ⟨by decide, delivered_iff .device 0x81 (by decide) [[4]]⟩

/-- Two packets in one read. -/
theorem not_delivered_merged :
    ¬ ∀ (sender : TcpEnd) (endpoint : Byte) (packets : List (List Byte)) (events : List Event)
      (t : Stream Byte), endpoint ≠ 0 → (∀ p ∈ packets, p.length ≤ 65535) → sent events = packets →
        run sender endpoint events = some t → t.inFlight = [] → t.reads = packets := by
  intro h
  have hmerged := h .device 0x81 [[4], [5]]
    [.sendData [4], .sendData [5], .receiveData (some 2)] _ (by decide) (by decide) rfl rfl rfl
  cases hmerged

end DataLink

end UsbProxy
