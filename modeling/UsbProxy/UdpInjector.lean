import UsbProxy.Library.Overlays
import UsbProxy.TcpControl

/-!
# Packets from datagrams

`Injector_UDP` and `Injector_UDPHID` make a packet or a setup packet of every datagram they receive.
The datagram is received into a buffer that is kept, and says how long its payload is; nothing
compares that with the number of bytes that came.  `confined_iff` says for which datagrams nothing
else gets into the packet.
-/

namespace UsbProxy

open Overlays

def UDP_BUFFER_SIZE : ℕ := 1472

/-- What `poll` and `recv` come to. -/
inductive UdpReception
  | none
  | failed
  | datagram (d : List Byte)

/-- What `get_packets` stores through its arguments. -/
structure UdpInjected where
  packet : Option Packet
  setup : Option SetupPacket
  deriving DecidableEq, Repr

def UdpInjected.nothing : UdpInjected := { packet := none, setup := none }

/-- `Injector_UDP::get_packets` on a non-empty datagram in the memory from `buf` on. -/
def udpFrame (buf : ℕ → Byte) : UdpInjected :=
  if buf 0 ≠ 0 then
    let usblen : UInt16 := ((buf 2).toUInt16 <<< 8) ||| (buf 3).toUInt16
    let usbbuf := copy buf 4 usblen.toNat
    let packet := Packet.new (buf 0) (some usbbuf) usblen (buf 1 &&& 0x01 == 0)
    { packet := some { packet with transmit := buf 1 &&& 0x02 == 0 }, setup := none }
  else
    let ctrlReq := CtrlRequest.ofBytes (copy buf 3 8)
    let setup :=
      if ctrlReq.deviceToHost then SetupPacket.new ctrlReq none true
      else SetupPacket.new ctrlReq (some (copy buf 11 ctrlReq.wLength.toNat)) true
    { packet := none
      setup := some { setup with
        filterOut := buf 1 &&& 0x01 != 0x01
        transmitOut := buf 1 &&& 0x02 != 0x02
        filterIn := buf 1 &&& 0x04 != 0x04
        transmitIn := buf 1 &&& 0x08 != 0x08 } }

/-- An injector with the memory from `buf` on; the buffer is the first `UDP_BUFFER_SIZE` bytes of
it. -/
structure InjectorUDP where
  buf : ℕ → Byte

def InjectorUDP.getPackets (s : InjectorUDP) : UdpReception → UdpInjected × InjectorUDP
  | .none | .failed => (.nothing, s)
  | .datagram d =>
    let received := d.take UDP_BUFFER_SIZE
    let s := { s with buf := overlay received s.buf }
    (if received = [] then .nothing else udpFrame s.buf, s)

/-- The same with the report buffer for `PacketFilter_UDPHID`. -/
structure InjectorUDPHID where
  buf : ℕ → Byte
  reportBuffer : List Byte

/-- `memcpy(reportBuffer+2,data+2,12)` for a report in a packet of 20 bytes. -/
def InjectorUDPHID.report (s : InjectorUDPHID) (p : Packet) : InjectorUDPHID :=
  if p.wLength = 20 ∧ p.byte 0 = 0 ∧ p.byte 1 = 20 then
    { s with reportBuffer :=
        s.reportBuffer.take 2 ++ ((p.data.getD []).drop 2).take 12 ++ s.reportBuffer.drop 14 }
  else s

def InjectorUDPHID.getPackets (s : InjectorUDPHID) : UdpReception → UdpInjected × InjectorUDPHID
  | .none | .failed => (.nothing, s)
  | .datagram d =>
    let received := d.take UDP_BUFFER_SIZE
    let s := { s with buf := overlay received s.buf }
    if received = [] then (.nothing, s)
    else
      let injected := udpFrame s.buf
      (injected, match injected.packet with
        | some p => s.report p
        | none => s)

/-! ## What a packet may depend on -/

/-- A datagram that comes over Ethernet. -/
structure Datagram where
  bytes : List Byte
  nonempty : bytes ≠ []
  length_le : bytes.length ≤ UDP_BUFFER_SIZE

/-- The bytes that a packet has for the device. -/
def UdpInjected.payload (r : UdpInjected) : List Byte :=
  match r.packet, r.setup with
  | some p, _ => p.data.getD []
  | none, some s => s.data.getD []
  | none, none => []

/-- Where the payload of a datagram begins. -/
def Datagram.header (d : Datagram) : ℕ := if d.bytes.getD 0 0 ≠ 0 then 4 else 11

/-- What is received does not depend on the old contents of the buffer, and its payload is that of
the datagram. -/
structure Confined (d : Datagram) (receive : (ℕ → Byte) → UdpInjected) : Prop where
  same : ∀ buf buf', (∀ i, UDP_BUFFER_SIZE ≤ i → buf i = buf' i) → receive buf = receive buf'
  payload : ∀ buf i v, (receive buf).payload[i]? = some v → d.bytes[d.header + i]? = some v

/-- The payload length in a datagram for an endpoint. -/
def frameLength (buf : ℕ → Byte) : UInt16 := ((buf 2).toUInt16 <<< 8) ||| (buf 3).toUInt16

/-- The setup packet in another one. -/
def frameSetup (buf : ℕ → Byte) : CtrlRequest := CtrlRequest.ofBytes (copy buf 3 8)

/-- The datagram is as long as it says. -/
def Datagram.Complete (d : Datagram) : Prop :=
  let buf := overlay d.bytes fun _ => 0
  if buf 0 ≠ 0 then 4 + (frameLength buf).toNat ≤ d.bytes.length
  else 11 ≤ d.bytes.length ∧ ((frameSetup buf).deviceToHost = true ∨
    11 + (frameSetup buf).wLength.toNat ≤ d.bytes.length)

section Frames

variable {buf : ℕ → Byte} {d : Datagram}

theorem payload_data (h : buf 0 ≠ 0) :
    (udpFrame buf).payload = copy buf 4 (frameLength buf).toNat := by
  unfold udpFrame
  rw [if_pos h]
  rfl

theorem payload_setup (h : ¬ buf 0 ≠ 0) : (udpFrame buf).payload =
    if (frameSetup buf).deviceToHost then []
    else copy buf 11 (frameSetup buf).wLength.toNat := by
  unfold udpFrame
  rw [if_neg h]
  show Option.getD (SetupPacket.toPacket (if (frameSetup buf).deviceToHost then _ else _)).data [] = _
  split_ifs <;> rfl

theorem setup_ctrlReq (h : ¬ buf 0 ≠ 0) :
    (udpFrame buf).setup.map SetupPacket.ctrlReq = some (frameSetup buf) := by
  unfold udpFrame
  rw [if_neg h]
  show some (SetupPacket.ctrlReq (if (frameSetup buf).deviceToHost then _ else _)) = _
  split_ifs <;> rfl

theorem udpFrame_congr_data {buf' : ℕ → Byte} (h : buf' 0 ≠ 0) (hcells : ∀ i < 4, buf i = buf' i)
    (hcopy : copy buf 4 (frameLength buf').toNat = copy buf' 4 (frameLength buf').toNat) :
    udpFrame buf = udpFrame buf' := by
  unfold frameLength at hcopy
  unfold udpFrame
  rw [hcells 0 (by decide), hcells 1 (by decide), hcells 2 (by decide), hcells 3 (by decide), if_pos h,
    if_pos h]
  dsimp only
  rw [hcopy]

theorem udpFrame_congr_setup {buf' : ℕ → Byte} (h : ¬ buf' 0 ≠ 0) (h0 : buf 0 = buf' 0)
    (h1 : buf 1 = buf' 1) (hsetup : copy buf 3 8 = copy buf' 3 8)
    (hcopy : (frameSetup buf').deviceToHost = true ∨
      copy buf 11 (frameSetup buf').wLength.toNat = copy buf' 11 (frameSetup buf').wLength.toNat) :
    udpFrame buf = udpFrame buf' := by
  unfold frameSetup at hcopy
  unfold udpFrame
  rw [h0, h1, hsetup, if_neg h, if_neg h]
  dsimp only
  obtain hin | hcopy := hcopy
  · rw [if_pos hin, if_pos hin]
  · rw [hcopy]

end Frames

theorem overlay_zero (d : Datagram) (buf : ℕ → Byte) :
    overlay d.bytes buf 0 = overlay d.bytes (fun _ => 0) 0 :=
  overlay_of_lt (List.length_pos_of_ne_nil d.nonempty) buf 0

theorem header_data {d : Datagram} (h : overlay d.bytes (fun _ => 0) 0 ≠ 0) : d.header = 4 := if_pos h

theorem header_setup {d : Datagram} (h : ¬ overlay d.bytes (fun _ => 0) 0 ≠ 0) : d.header = 11 :=
  if_neg h

/-- What either injector makes of a datagram. -/
theorem receive_udp (d : Datagram) (buf : ℕ → Byte) :
    (InjectorUDP.getPackets ⟨buf⟩ (.datagram d.bytes)).1 = udpFrame (overlay d.bytes buf) := by
  unfold InjectorUDP.getPackets
  dsimp only
  rw [List.take_of_length_le d.length_le, if_neg d.nonempty]

theorem receive_udphid (d : Datagram) (reportBuffer : List Byte) (buf : ℕ → Byte) :
    (InjectorUDPHID.getPackets ⟨buf, reportBuffer⟩ (.datagram d.bytes)).1 =
      udpFrame (overlay d.bytes buf) := by
  unfold InjectorUDPHID.getPackets
  dsimp only
  rw [List.take_of_length_le d.length_le, if_neg d.nonempty]

theorem wLength_frameSetup {buf buf' : ℕ → Byte} (h : frameSetup buf = frameSetup buf') :
    buf 10 = buf' 10 := by
  have hlength := congrArg (fun r => leBytes r.wLength) h
  unfold frameSetup CtrlRequest.ofBytes at hlength
  dsimp only at hlength
  rw [leBytes_leWord, leBytes_leWord, List.cons.injEq, List.cons.injEq] at hlength
  exact hlength.2.1

theorem Confined.of_frame {d : Datagram}
    (hframe : ∀ buf, udpFrame (overlay d.bytes buf) = udpFrame (overlay d.bytes fun _ => 0))
    (hpayload : ∀ i v, (udpFrame (overlay d.bytes fun _ => 0)).payload[i]? = some v →
      d.bytes[d.header + i]? = some v) :
    Confined d fun buf => udpFrame (overlay d.bytes buf) := by
  refine ⟨fun buf buf' _ => (hframe buf).trans (hframe buf').symm, fun buf i v hv => ?_⟩
  rw [hframe] at hv
  exact hpayload i v hv

theorem confined_data {d : Datagram} (h : overlay d.bytes (fun _ => 0) 0 ≠ 0)
    (hlen : 4 + (frameLength (overlay d.bytes fun _ => 0)).toNat ≤ d.bytes.length) :
    Confined d fun buf => udpFrame (overlay d.bytes buf) := by
  apply Confined.of_frame
  · intro buf
    apply udpFrame_congr_data h
    · intro i hi
      exact overlay_of_lt (by omega) buf 0
    · rw [copy_overlay hlen, copy_overlay hlen]
  · intro i v hv
    rw [payload_data h] at hv
    rw [header_data h]
    exact getElem?_of_copy_overlay hlen hv

theorem confined_setup {d : Datagram} (h : ¬ overlay d.bytes (fun _ => 0) 0 ≠ 0)
    (hlen : 11 ≤ d.bytes.length)
    (hdata : (frameSetup (overlay d.bytes fun _ => 0)).deviceToHost = true ∨
      11 + (frameSetup (overlay d.bytes fun _ => 0)).wLength.toNat ≤ d.bytes.length) :
    Confined d fun buf => udpFrame (overlay d.bytes buf) := by
  apply Confined.of_frame
  · intro buf
    apply udpFrame_congr_setup h (overlay_zero d buf) (overlay_of_lt (by omega) buf 0)
    · rw [copy_overlay hlen, copy_overlay hlen]
    · exact hdata.imp_right fun hout => by rw [copy_overlay hout, copy_overlay hout]
  · intro i v hv
    rw [payload_setup h] at hv
    rw [header_setup h]
    split_ifs at hv with hin
    · cases hv
    · exact getElem?_of_copy_overlay (hdata.resolve_left hin) hv

theorem Datagram.Complete.confined {d : Datagram} (h : d.Complete) :
    Confined d fun buf => udpFrame (overlay d.bytes buf) := by
  unfold Datagram.Complete at h
  dsimp only at h
  split_ifs at h with h0
  · exact confined_data h0 h
  · exact confined_setup h0 h.1 h.2

/-- A frame for an endpoint that is too short takes old contents for its payload. -/
theorem Confined.data_length {d : Datagram} (h0 : overlay d.bytes (fun _ => 0) 0 ≠ 0)
    (h : Confined d fun buf => udpFrame (overlay d.bytes buf)) :
    4 + (frameLength (overlay d.bytes fun _ => 0)).toNat ≤ d.bytes.length := by
  have hpayload := h.payload
  rw [header_data h0] at hpayload
  by_contra hshort
  by_cases hheader : 4 ≤ d.bytes.length
  · obtain ⟨i, v, hv, hnone⟩ := exists_getElem?_copy hheader hshort (overlay d.bytes fun _ => 0)
    rw [← payload_data h0] at hv
    rw [hpayload _ i v hv] at hnone
    cases hnone
  · -- The low byte of the length comes from the old contents.
    have h0' : overlay d.bytes (fun _ => 0xff) 0 ≠ 0 := by rwa [overlay_zero]
    have hlen : 0 < (frameLength (overlay d.bytes fun _ => 0xff)).toNat := by
      unfold frameLength
      rw [overlay_of_le (by omega : d.bytes.length ≤ 3), UInt16.toNat_or]
      exact Nat.lt_of_lt_of_le (by decide) Nat.right_le_or
    have hv := hpayload (fun _ => 0xff) 0 _ (by rw [payload_data h0']; exact getElem?_copy hlen)
    rw [List.getElem?_eq_none (by omega)] at hv
    cases hv

/-- So does a frame with a setup packet. -/
theorem Confined.setup_length {d : Datagram} (h0 : ¬ overlay d.bytes (fun _ => 0) 0 ≠ 0)
    (h : Confined d fun buf => udpFrame (overlay d.bytes buf)) :
    11 ≤ d.bytes.length ∧ ((frameSetup (overlay d.bytes fun _ => 0)).deviceToHost = true ∨
      11 + (frameSetup (overlay d.bytes fun _ => 0)).wLength.toNat ≤ d.bytes.length) := by
  have hheader : 11 ≤ d.bytes.length := by
    by_contra hshort
    -- The last byte of the setup packet comes from the old contents.
    have hsame := h.same (fun _ => 0) (Function.update (fun _ => 0) 10 1) fun i hi => by
      have hne : i ≠ 10 := by
        rintro rfl
        exact absurd hi (by decide)
      rw [Function.update_of_ne hne]
    have hsetup := congrArg (fun r => r.setup.map SetupPacket.ctrlReq) hsame
    rw [setup_ctrlReq h0, setup_ctrlReq (by rwa [overlay_zero]), Option.some.injEq] at hsetup
    have hlast := wLength_frameSetup hsetup
    rw [overlay_of_le (by omega : d.bytes.length ≤ 10), overlay_of_le (by omega : d.bytes.length ≤ 10),
      Function.update_self] at hlast
    exact absurd hlast (by decide)
  refine ⟨hheader, ?_⟩
  by_contra hshort
  rw [not_or] at hshort
  have hpayload := h.payload
  rw [header_setup h0] at hpayload
  obtain ⟨i, v, hv, hnone⟩ := exists_getElem?_copy hheader hshort.2 (overlay d.bytes fun _ => 0)
  have hcopy := payload_setup h0
  rw [if_neg hshort.1] at hcopy
  rw [← hcopy] at hv
  rw [hpayload _ i v hv] at hnone
  cases hnone

theorem Confined.complete {d : Datagram} (h : Confined d fun buf => udpFrame (overlay d.bytes buf)) :
    d.Complete := by
  unfold Datagram.Complete
  dsimp only
  split_ifs with h0
  · exact h.data_length h0
  · exact h.setup_length h0

/-- The report buffer that `Injector_UDPHID` keeps is confined with the packets. -/
theorem reportBuffer_confined {d : Datagram} (h : d.Complete) (reportBuffer : List Byte)
    {buf buf' : ℕ → Byte} (hbuf : ∀ i, UDP_BUFFER_SIZE ≤ i → buf i = buf' i) :
    (InjectorUDPHID.getPackets ⟨buf, reportBuffer⟩ (.datagram d.bytes)).2.reportBuffer =
      (InjectorUDPHID.getPackets ⟨buf', reportBuffer⟩ (.datagram d.bytes)).2.reportBuffer := by
  have hsame : udpFrame (overlay d.bytes buf) = udpFrame (overlay d.bytes buf') :=
    h.confined.same buf buf' hbuf
  unfold InjectorUDPHID.getPackets
  dsimp only
  rw [List.take_of_length_le d.length_le, if_neg d.nonempty, if_neg d.nonempty, hsame]
  cases (udpFrame (overlay d.bytes buf')).packet with
  | none => rfl
  | some p =>
    unfold InjectorUDPHID.report
    dsimp only
    split_ifs <;> rfl

/-- **Datagrams.**  What both injectors make of a datagram is confined to it exactly when it is
complete. -/
theorem confined_iff (d : Datagram) (reportBuffer : List Byte) :
    (Confined d (fun buf => (InjectorUDP.getPackets ⟨buf⟩ (.datagram d.bytes)).1) ∧
      Confined d (fun buf => (InjectorUDPHID.getPackets ⟨buf, reportBuffer⟩ (.datagram d.bytes)).1)) ↔
      d.Complete := by
  rw [funext (receive_udp d), funext (receive_udphid d reportBuffer), and_self_iff]
  exact ⟨Confined.complete, Datagram.Complete.confined⟩

/-- A frame for endpoint 1 that announces four bytes and brings one. -/
def shortFrame : Datagram where
  bytes := [0x01, 0, 0, 4, 0xaa]
  nonempty := List.cons_ne_nil _ _
  length_le := by decide

/-- The other three are from the datagram before it. -/
theorem confined_fails :
    ¬ (Confined shortFrame (fun buf => (InjectorUDP.getPackets ⟨buf⟩ (.datagram shortFrame.bytes)).1) ∧
      Confined shortFrame
        (fun buf => (InjectorUDPHID.getPackets ⟨buf, []⟩ (.datagram shortFrame.bytes)).1)) := by
  rintro ⟨h, -⟩
  have := h.payload (fun _ => 0xbb) 1 0xbb (by decide)
  exact absurd this (by decide)

end UsbProxy
