import UsbProxy.Descriptors
import UsbProxy.TcpData

/-!
# Control requests over TCP

`DeviceProxy_TCP::control_request` writes the setup packet with the payload behind it, and
`HostProxy_TCP::control_request` takes them apart again.  `controlRequest_iff` says for which requests the
caller gets them back.
-/

namespace UsbProxy

theorem CtrlRequest.ofBytes_bytes (r : CtrlRequest) (payload : List Byte) :
    ofBytes (r.bytes ++ payload) = r := by
  simp [ofBytes, bytes, leBytes, leWord_leBytes]

/-- What `DeviceProxy_TCP::control_request` writes. -/
def DeviceProxyTCP.requestBytes (setupPacket : CtrlRequest) (dataptr : List Byte) : List Byte :=
  setupPacket.bytes ++
    if setupPacket.deviceToHost then [] else dataptr.take setupPacket.wLength.toNat

/-- A block `malloc` gives: the eight bytes of its address, and what it holds to begin with. -/
structure Block where
  address : List Byte
  contents : List Byte
  address_length : address.length = 8

/-- `NULL` in a pointer variable. -/
def nullPointer : List Byte := List.replicate 8 0

/-- What the caller of `HostProxy_TCP::control_request` has afterwards. -/
structure ReceivedRequest where
  setupPacket : CtrlRequest
  /-- The bytes of the caller's pointer variable. -/
  dataptr : List Byte
  /-- What the block holds, if one was made. -/
  contents : List Byte
  nbytes : ℕ

/-- `HostProxy_TCP::control_request` for a read that is not empty.  The payload is copied to `dataptr`,
the caller's variable, and not to `*dataptr`; what is copied behind the variable is not followed. -/
def HostProxyTCP.controlRequest (buf : List Byte) (block : Block) : ReceivedRequest :=
  let setupPacket := CtrlRequest.ofBytes buf
  if !setupPacket.deviceToHost ∧ setupPacket.wLength ≠ 0 then
    { setupPacket, dataptr := (buf.drop 8).take 8 ++ block.address.drop (buf.length - 8)
      contents := block.contents, nbytes := buf.length - 8 }
  else { setupPacket, dataptr := nullPointer, contents := [], nbytes := 0 }

/-- Nothing is ever written to the block. -/
theorem HostProxyTCP.contents_controlRequest {buf : List Byte} (block : Block)
    (hin : (CtrlRequest.ofBytes buf).deviceToHost = false)
    (hlength : (CtrlRequest.ofBytes buf).wLength ≠ 0) :
    (controlRequest buf block).contents = block.contents := by
  unfold controlRequest
  simp only [hin]
  rw [if_pos ⟨rfl, hlength⟩]

/-- The setup packet and the payload of a request, at the caller. -/
structure Delivers (setupPacket : CtrlRequest) (payload : List Byte) (block : Block)
    (r : ReceivedRequest) : Prop where
  setup : r.setupPacket = setupPacket
  payload : setupPacket.deviceToHost = false → setupPacket.wLength ≠ 0 →
    r.dataptr = block.address ∧ r.contents = payload ∧ r.nbytes = payload.length
  none : setupPacket.deviceToHost = true ∨ setupPacket.wLength = 0 →
    r.dataptr = nullPointer ∧ r.nbytes = 0

theorem length_requestBytes_le {setupPacket : CtrlRequest} {payload : List Byte}
    (hfits : setupPacket.deviceToHost = false → 8 + setupPacket.wLength.toNat ≤ TCP_BUFFER_SIZE) :
    (DeviceProxyTCP.requestBytes setupPacket payload).length ≤ TCP_BUFFER_SIZE := by
  have hsetup : setupPacket.bytes.length = 8 := rfl
  unfold DeviceProxyTCP.requestBytes
  rw [List.length_append, hsetup]
  cases h : setupPacket.deviceToHost with
  | true =>
    rw [if_pos rfl]
    decide
  | false =>
    rw [if_neg Bool.false_ne_true]
    have htake : (payload.take setupPacket.wLength.toNat).length ≤ setupPacket.wLength.toNat :=
      List.length_take_le ..
    have hle := hfits h
    omega

/-- **Control requests.**  Whatever block `malloc` gives, the caller gets the setup packet and the payload
back exactly when there is no payload. -/
theorem controlRequest_iff (setupPacket : CtrlRequest) (payload : List Byte)
    (hlen : setupPacket.deviceToHost = false → payload.length = setupPacket.wLength.toNat)
    (hfits : setupPacket.deviceToHost = false → 8 + setupPacket.wLength.toNat ≤ TCP_BUFFER_SIZE) :
    (∀ block : Block, Delivers setupPacket payload block (HostProxyTCP.controlRequest
      ((DeviceProxyTCP.requestBytes setupPacket payload).take TCP_BUFFER_SIZE) block)) ↔
      setupPacket.deviceToHost = true ∨ setupPacket.wLength = 0 := by
  rw [List.take_of_length_le (length_requestBytes_le hfits)]
  have hsetup : CtrlRequest.ofBytes (DeviceProxyTCP.requestBytes setupPacket payload) = setupPacket :=
    CtrlRequest.ofBytes_bytes _ _
  constructor
  · intro h
    by_contra hnot
    obtain ⟨hin, hlength⟩ := not_or.1 hnot
    rw [Bool.not_eq_true] at hin
    -- A block that holds something else than the payload.
    let block : Block := ⟨List.replicate 8 1, payload.map (· + 1), List.length_replicate⟩
    have hmade := HostProxyTCP.contents_controlRequest block (by rw [hsetup]; exact hin)
      (by rw [hsetup]; exact hlength)
    have hcontents : payload.map (· + 1) = payload :=
      hmade.symm.trans ((h block).payload hin hlength).2.1
    cases payload with
    | nil => exact hlength (UInt16.toNat_inj.1 (hlen hin).symm)
    | cons b payload =>
      have hb : b + 1 = b := (List.cons_eq_cons.1 hcontents).1
      simp at hb
  · intro hnone block
    have hno : ¬ ((!setupPacket.deviceToHost) = true ∧ setupPacket.wLength ≠ 0) := by
      rintro ⟨hin, hlength⟩
      rcases hnone with h | h
      · rw [h] at hin
        cases hin
      · exact hlength h
    unfold HostProxyTCP.controlRequest
    simp only [hsetup, if_neg hno]
    refine ⟨rfl, fun hin hlength => ?_, fun _ => ⟨rfl, rfl⟩⟩
    exact absurd ⟨by rw [hin]; rfl, hlength⟩ hno

/-- SET_REPORT of a keyboard, with the state of its lights behind it. -/
def setReport : CtrlRequest :=
  { bRequestType := 0x21, bRequest := 9, wValue := 0x200, wIndex := 0, wLength := 1 }

/-- SET_IDLE, which has no payload. -/
def setIdle : CtrlRequest :=
  { bRequestType := 0x21, bRequest := 0x0a, wValue := 0, wIndex := 0, wLength := 0 }

theorem controlRequest_iff_setIdle :
    setIdle.deviceToHost = false ∧ ([] : List Byte).length = setIdle.wLength.toNat ∧
      8 + setIdle.wLength.toNat ≤ TCP_BUFFER_SIZE ∧
      ∀ block : Block, Delivers setIdle [] block (HostProxyTCP.controlRequest
        ((DeviceProxyTCP.requestBytes setIdle []).take TCP_BUFFER_SIZE) block) :=
  have hfits : 8 + setIdle.wLength.toNat ≤ TCP_BUFFER_SIZE := by decide
  ⟨rfl, rfl, hfits, (controlRequest_iff setIdle [] (fun _ => rfl) fun _ => hfits).2 (.inr rfl)⟩

/-- The lights end up in the lowest byte of the caller's pointer. -/
theorem not_delivers_setReport :
    ¬ ∀ (setupPacket : CtrlRequest) (payload : List Byte),
      (setupPacket.deviceToHost = false → payload.length = setupPacket.wLength.toNat) →
      (setupPacket.deviceToHost = false → 8 + setupPacket.wLength.toNat ≤ TCP_BUFFER_SIZE) →
        ∀ block : Block, Delivers setupPacket payload block (HostProxyTCP.controlRequest
          ((DeviceProxyTCP.requestBytes setupPacket payload).take TCP_BUFFER_SIZE) block) := by
  intro h
  have hpointer := ((h setReport [2] (fun _ => rfl) (fun _ => by decide)
    ⟨[0x40, 0x12, 0, 0, 0, 0x7f, 0, 0], [0], rfl⟩).payload rfl (by decide)).1
  exact absurd hpointer (by decide)

end UsbProxy
