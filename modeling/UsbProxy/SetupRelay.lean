import UsbProxy.Filters
import UsbProxy.Manager

/-!
# One round of the setup writer

The body of the loop of `relay_write_setup` for one dequeued setup packet: the out-phase filters, the
test of the transmit flags, the control transfer in the packet's direction, `setConfig`, and the
in-phase filters.  `SetupReport` keeps what the round did, in the order the source does it.

The index `j` is a byte of the source; it does not wrap with fewer than 256 attached plugins.
-/

namespace UsbProxy

/-- What `control_request` comes to: the bytes it moved, or a failure that leaves `*nbytes` alone. -/
inductive Outcome
  | success (bytes : List Byte)
  | failure
  deriving DecidableEq, Repr

/-- `control_request(..) >= 0`. -/
def Outcome.accepted : Outcome → Bool
  | success _ => true
  | failure => false

/-- The bytes of a transfer of at most `wLength`. -/
def Outcome.moved (wLength : UInt16) : Outcome → List Byte
  | success bytes => bytes.take wLength.toNat
  | failure => []

/-- `*nbytes` after a call that found `length` in it. -/
def Outcome.nbytes (wLength : UInt16) (length : ℤ) (o : Outcome) : ℤ :=
  if o.accepted then (o.moved wLength).length else length

/-- `bRequest == USB_REQ_SET_CONFIGURATION && bRequestType == 0`. -/
def CtrlRequest.setsConfiguration (r : CtrlRequest) : Bool := r.bRequest == 9 && r.bRequestType == 0

def getDescriptor (wLength : UInt16) : SetupPacket :=
  .new { bRequestType := 0x80, bRequest := 6, wValue := 0x0100, wIndex := 0, wLength } none

/-- The writer between two rounds: the plugin objects, the local `length`, the manager. -/
structure SetupWriter where
  filters : List Plugin
  length : ℤ
  manager : Manager

structure SetupReport where
  /-- The request handed to the device, unless the packet was discarded. -/
  transfer : Option CtrlRequest
  accepted : Bool
  /-- The argument of `setConfig`. -/
  setConfig : Option Byte
  /-- The packet at each in-phase call of `filter_setup_packet`. -/
  inCalls : List SetupPacket
  /-- The packet put on the reply queue. -/
  reply : Option SetupPacket
  writer : SetupWriter
  ending : Ending

/-! ## The filter loops -/

/-- `for(j=0; j<filters.size() && s->filter_out; j++)`: the plugins, the packet and `j` after it. -/
def filterOutLoop : List Plugin → SetupPacket → List Plugin × SetupPacket × ℕ
  | [], s => ([], s, 0)
  | f :: fs, s =>
    if s.filterOut then
      let (f', s') := if f.base.testSetupPacket s true then f.filterSetupPacket s true else (f, s)
      let (fs', s'', j) := filterOutLoop fs s'
      (f' :: fs', s'', j + 1)
    else (f :: fs, s, 0)

/-- `for(;j<filters.size() && s->filter_in; j++)` over the plugins from `j` on. -/
def filterInLoop : List Plugin → SetupPacket → List Plugin × SetupPacket × List SetupPacket
  | [], s => ([], s, [])
  | f :: fs, s =>
    if s.filterIn then
      if f.base.testSetupPacket s false then
        let (f', s') := f.filterSetupPacket s false
        let (fs', s'', calls) := filterInLoop fs s'
        (f' :: fs', s'', s :: calls)
      else
        let (fs', s'', calls) := filterInLoop fs s
        (f :: fs', s'', calls)
    else (f :: fs, s, [])

def outPhase (fs : List Plugin) (s : SetupPacket) : List Plugin × SetupPacket × ℕ :=
  if s.filter then filterOutLoop fs s else (fs, s, 0)

def inPhase (j : ℕ) (fs : List Plugin) (s : SetupPacket) :
    List Plugin × SetupPacket × List SetupPacket :=
  if s.filter then
    let (fs', s', calls) := filterInLoop (fs.drop j) s
    (fs.take j ++ fs', s', calls)
  else (fs, s, [])

/-! ## The transfer -/

/-- The packet after a device-to-host transfer into a new block of `wLength` bytes; what the device
did not write reads as zero. -/
def readFromDevice (s : SetupPacket) (length : ℤ) (o : Outcome) : SetupPacket :=
  { s with
    data := some ((o.moved s.ctrlReq.wLength).takeD s.ctrlReq.wLength.toNat 0)
    transmitIn := o.accepted
    ctrlReq.wLength := UInt16.ofInt (o.nbytes s.ctrlReq.wLength length) }

/-- The packet after a host-to-device transfer. -/
def writeToDevice (s : SetupPacket) (o : Outcome) : SetupPacket :=
  { s with transmitIn := o.accepted, ctrlReq.wLength := 0 }

/-- One round for a packet the device answers with `o`. -/
def relayWriteSetup (w : SetupWriter) (packet : SetupPacket) (o : Outcome) : SetupReport :=
  let (fs, s, j) := outPhase w.filters packet
  if !s.transmitOut || !s.transmit then
    { transfer := none, accepted := false, setConfig := none, inCalls := [], reply := none
      writer := { w with filters := fs }, ending := .returns }
  else if s.ctrlReq.deviceToHost then
    let length := o.nbytes s.ctrlReq.wLength w.length
    -- Here `j` starts over.
    let (fs', s', calls) := inPhase 0 fs (readFromDevice s w.length o)
    { transfer := some s.ctrlReq, accepted := o.accepted, setConfig := none, inCalls := calls
      reply := some s', writer := { w with filters := fs', length }, ending := .returns }
  else
    let length := o.nbytes s.ctrlReq.wLength s.ctrlReq.wLength.toNat
    let called := s.ctrlReq.setsConfiguration
    let (manager, ending) :=
      if called then
        let r := w.manager.setConfig s.ctrlReq.wValue.toUInt8
        (r.1, r.2.1)
      else (w.manager, .returns)
    let setConfig := if called then some s.ctrlReq.wValue.toUInt8 else none
    if ending = .returns then
      -- Here `j` goes on from where the out-phase stopped.
      let (fs', s', calls) := inPhase j fs (writeToDevice s o)
      { transfer := some s.ctrlReq, accepted := o.accepted, setConfig, inCalls := calls
        reply := some s', writer := { filters := fs', length, manager }, ending }
    else
      { transfer := some s.ctrlReq, accepted := o.accepted, setConfig, inCalls := [], reply := none
        writer := { filters := fs, length, manager }, ending }

/-! ## What a round can do -/

/-- The packet behind the out-phase. -/
def SetupWriter.outgoing (w : SetupWriter) (packet : SetupPacket) : SetupPacket :=
  (outPhase w.filters packet).2.1

/-- The request the device gets, unless the transmit flags are down behind the out-phase. -/
def SetupWriter.request (w : SetupWriter) (packet : SetupPacket) : Option CtrlRequest :=
  let s := w.outgoing packet
  if s.transmitOut && s.transmit then some s.ctrlReq else none

theorem CtrlRequest.deviceToHost_of_setsConfiguration {r : CtrlRequest}
    (h : r.setsConfiguration = true) : r.deviceToHost = false := by
  simp only [setsConfiguration, Bool.and_eq_true, beq_iff_eq] at h
  unfold deviceToHost
  rw [h.2]
  rfl

section Round

variable {w : SetupWriter} {packet : SetupPacket} {o : Outcome} {r : CtrlRequest}

theorem request_eq_none : w.request packet = none ↔
    (!(w.outgoing packet).transmitOut || !(w.outgoing packet).transmit) = true := by
  unfold SetupWriter.request
  generalize w.outgoing packet = s
  cases ho : s.transmitOut <;> cases ht : s.transmit <;> simp [ho, ht]

theorem request_eq_some : w.request packet = some r ↔
    ¬ (!(w.outgoing packet).transmitOut || !(w.outgoing packet).transmit) = true ∧
      (w.outgoing packet).ctrlReq = r := by
  unfold SetupWriter.request
  generalize w.outgoing packet = s
  cases ho : s.transmitOut <;> cases ht : s.transmit <;> simp [ho, ht]

/-- The round of a packet whose transmit flags are down behind the out-phase. -/
theorem round_discarded (h : w.request packet = none) (o : Outcome) :
    relayWriteSetup w packet o =
      { transfer := none, accepted := false, setConfig := none, inCalls := [], reply := none
        writer := { w with filters := (outPhase w.filters packet).1 }, ending := .returns } :=
  if_pos (request_eq_none.1 h)

/-- The call of `setConfig` a host-to-device round makes, if any: the manager after it and how it
ends. -/
def SetupWriter.configure (w : SetupWriter) (r : CtrlRequest) : Manager × Ending :=
  if r.setsConfiguration then
    ((w.manager.setConfig r.wValue.toUInt8).1, (w.manager.setConfig r.wValue.toUInt8).2.1)
  else (w.manager, .returns)

/-- All a round can do: discard the packet, read from the device, write to it, or end the process in
`setConfig`. -/
inductive Round (w : SetupWriter) (packet : SetupPacket) (o : Outcome) : SetupReport → Prop
  | discarded (h : w.request packet = none) :
      Round w packet o
        { transfer := none, accepted := false, setConfig := none, inCalls := [], reply := none
          writer := { w with filters := (outPhase w.filters packet).1 }, ending := .returns }
  | fromDevice {r : CtrlRequest} (h : w.request packet = some r) (hr : r.deviceToHost = true) :
      Round w packet o <|
        let after := inPhase 0 (outPhase w.filters packet).1
          (readFromDevice (w.outgoing packet) w.length o)
        { transfer := some r, accepted := o.accepted, setConfig := none, inCalls := after.2.2
          reply := some after.2.1
          writer := { w with filters := after.1, length := o.nbytes r.wLength w.length }
          ending := .returns }
  | toDevice {r : CtrlRequest} (h : w.request packet = some r) (hr : r.deviceToHost = false)
      (hend : (w.configure r).2 = .returns) :
      Round w packet o <|
        let after := inPhase (outPhase w.filters packet).2.2 (outPhase w.filters packet).1
          (writeToDevice (w.outgoing packet) o)
        { transfer := some r, accepted := o.accepted
          setConfig := if r.setsConfiguration then some r.wValue.toUInt8 else none
          inCalls := after.2.2, reply := some after.2.1
          writer :=
            { filters := after.1, length := o.nbytes r.wLength r.wLength.toNat
              manager := (w.configure r).1 }
          ending := (w.configure r).2 }
  | ends {r : CtrlRequest} (h : w.request packet = some r) (hr : r.deviceToHost = false)
      (hend : (w.configure r).2 ≠ .returns) :
      Round w packet o
        { transfer := some r, accepted := o.accepted
          setConfig := if r.setsConfiguration then some r.wValue.toUInt8 else none
          inCalls := [], reply := none
          writer :=
            { filters := (outPhase w.filters packet).1
              length := o.nbytes r.wLength r.wLength.toNat, manager := (w.configure r).1 }
          ending := (w.configure r).2 }

theorem relayWriteSetup_round (w : SetupWriter) (packet : SetupPacket) (o : Outcome) :
    Round w packet o (relayWriteSetup w packet o) := by
  cases h : w.request packet with
  | none =>
    rw [round_discarded h]
    exact .discarded h
  | some r =>
    obtain ⟨hflags, rfl⟩ := request_eq_some.1 h
    by_cases hr : (w.outgoing packet).ctrlReq.deviceToHost = true
    · exact (congrArg (Round w packet o) ((if_neg hflags).trans (if_pos hr))).mpr (.fromDevice h hr)
    · have hr' : (w.outgoing packet).ctrlReq.deviceToHost = false := by simpa using hr
      by_cases hend : (w.configure (w.outgoing packet).ctrlReq).2 = .returns
      · exact (congrArg (Round w packet o) ((if_neg hflags).trans
          ((if_neg hr).trans (if_pos hend)))).mpr (.toDevice h hr' hend)
      · exact (congrArg (Round w packet o) ((if_neg hflags).trans
          ((if_neg hr).trans (if_neg hend)))).mpr (.ends h hr' hend)

/-- A round that comes back has a reply unless it discarded the packet. -/
theorem Round.reply_eq_none_iff {rep : SetupReport} (h : Round w packet o rep)
    (hend : rep.ending = .returns) : rep.reply = none ↔ w.request packet = none := by
  cases h with
  | discarded h => exact iff_of_true rfl h
  | fromDevice h hr => exact iff_of_false (by simp) (by simp [h])
  | toDevice h hr => exact iff_of_false (by simp) (by simp [h])
  | ends h hr hends => exact absurd hend hends

end Round

end UsbProxy
