import UsbProxy.Descriptors
import UsbProxy.SetupRelay
import UsbProxy.StringLimits

/-!
# The control requests of the emulated devices

`control_request` of `DeviceProxy_Loopback` and of `DeviceProxy_dot11` answers from descriptors that the
constructor set up.  `ControlReply` is what the caller gets: the result, `*nbytes` unless it was left
alone, and the bytes stored from `dataptr` on, where the caller has a block of `wLength` bytes.
-/

namespace UsbProxy

structure ControlReply where
  ret : ℤ
  nbytes : Option ℕ
  written : List Byte
  deriving DecidableEq, Repr

namespace ControlReply

/-- `return -1`. -/
def stall : ControlReply := { ret := -1, nbytes := none, written := [] }

/-- Behind a branch that stores nothing. -/
def unanswered : ControlReply := { ret := 0, nbytes := none, written := [] }

/-- `*nbytes = n` and a copy of so many bytes. -/
def copy (bytes : List Byte) (n : ℕ) : ControlReply :=
  { ret := 0, nbytes := some n, written := bytes.take n }

end ControlReply

/-- The block of a string descriptor. -/
def StringDescriptor.bytes (d : StringDescriptor) : List Byte :=
  [d.bLength, d.bDescriptorType] ++ d.wData.flatMap leBytes

/-- `usb_device_descriptor` in memory; the four strings have the indices from 1 on. -/
def deviceDescriptor (bDeviceClass : Byte) (vendorId productId : UInt16) : List Byte :=
  [18, 1] ++ leBytes 0x0100 ++ [bDeviceClass, 0, 0, 64] ++ leBytes vendorId ++ leBytes productId ++
    leBytes 0 ++ [1, 2, 3, 1]

/-- The configuration with its interface and its two endpoints, one behind the other. -/
def configBlock (config : UsbConfigDescriptor) (interface : UsbInterfaceDescriptor)
    (eps : UsbEndpointDescriptor × UsbEndpointDescriptor) : List Byte :=
  fromStruct config.bytes config.bLength ++ fromStruct interface.bytes interface.bLength ++
    fromStruct eps.1.bytes eps.1.bLength ++ fromStruct eps.2.bytes eps.2.bLength

/-- What a constructor sets up. -/
structure ControlObjects where
  device : List Byte
  config : UsbConfigDescriptor
  interface : UsbInterfaceDescriptor
  eps : UsbEndpointDescriptor × UsbEndpointDescriptor
  strings : List USBString
  device_length : device.length = 18
  device_bLength : device.getD 0 0 = 18
  config_length : config.wTotalLength.toNat = (configBlock config interface eps).length
  string_length : ∀ s ∈ strings, s.descriptor.bLength.toNat ≤ s.descriptor.bytes.length

namespace ControlObjects

def bNumConfigurations (o : ControlObjects) : Byte := o.device.getD 17 0

/-- The GET_DESCRIPTOR branch the two devices share. -/
def getDescriptor (o : ControlObjects) (r : CtrlRequest) : ControlReply :=
  let idx := r.wValue.toUInt8
  match (r.wValue >>> 8).toNat with
  | 1 => .copy o.device (o.device.getD 0 0).toNat
  | 2 =>
    if o.bNumConfigurations ≤ idx then .stall
    else .copy (configBlock o.config o.interface o.eps)
      (min o.config.wTotalLength.toNat r.wLength.toNat)
  | 3 =>
    if 0 < idx ∧ r.wIndex ≠ 0x409 then .stall
    else
      match o.strings[idx.toNat]? with
      | none => .stall
      | some string =>
        .copy string.descriptor.bytes (min string.descriptor.bLength.toNat r.wLength.toNat)
  | 6 => .stall
  | 7 => .stall
  | _ => .unanswered

end ControlObjects

/-! ## The devices -/

/-- The configuration of one interface with two endpoints both devices have; `iConfiguration` is the
fourth string. -/
def emulatedConfig : UsbConfigDescriptor where
  bLength := 9
  bDescriptorType := USB_DT_CONFIG
  wTotalLength := 32
  bNumInterfaces := 1
  bConfigurationValue := 1
  iConfiguration := 4
  bmAttributes := 0xc0
  bMaxPower := 1

def emulatedInterface (bInterfaceClass : Byte) : UsbInterfaceDescriptor where
  bLength := 9
  bDescriptorType := USB_DT_INTERFACE
  bInterfaceNumber := 0
  bAlternateSetting := 0
  bNumEndpoints := 2
  bInterfaceClass := bInterfaceClass
  bInterfaceSubClass := 0
  bInterfaceProtocol := 0
  iInterface := 4

def emulatedEndpoint (bEndpointAddress bmAttributes : Byte) : UsbEndpointDescriptor where
  bLength := 7
  bDescriptorType := USB_DT_ENDPOINT
  bEndpointAddress := bEndpointAddress
  bmAttributes := bmAttributes
  wMaxPacketSize := 64
  bInterval := 10
  bRefresh := 0
  bSynchAddress := 0

/-- The list of language ids, and the four texts at the indices from 1 on. -/
def emulatedStrings (charSigned : Bool) (texts : List String) : List USBString :=
  ((USBString.ofUnicode [0x0409, 0] 0 0) :: texts.zipIdx.map fun t =>
    USBString.ofAscii charSigned (t.1.toList.map fun c => UInt8.ofNat c.toNat) (UInt8.ofNat (t.2 + 1))
      0x409).reduceOption

def loopbackObjects (charSigned : Bool) (vendorId productId : UInt16) : ControlObjects where
  device := deviceDescriptor 0xff vendorId productId
  config := emulatedConfig
  interface := emulatedInterface 0xff
  eps := (emulatedEndpoint 0x81 3, emulatedEndpoint 1 3)
  strings := emulatedStrings charSigned ["Manufacturer", "Product", "Serial", "Loopback"]
  device_length := rfl
  device_bLength := rfl
  config_length := rfl
  string_length := by cases charSigned <;> decide +kernel

def dot11Objects (charSigned : Bool) : ControlObjects where
  device := deviceDescriptor 3 0xffff 0x0005
  config := emulatedConfig
  interface := emulatedInterface 3
  eps := (emulatedEndpoint 0x81 2, emulatedEndpoint 2 2)
  strings := emulatedStrings charSigned ["USBProxy", "802.11 HID Device", "0001", "802.11"]
  device_length := rfl
  device_bLength := rfl
  config_length := rfl
  string_length := by cases charSigned <;> decide +kernel

example (charSigned : Bool) : (loopbackObjects charSigned 0xffff 0xffff).strings.length = 5 := by
  cases charSigned <;> decide +kernel

/-- `DeviceProxy_Loopback::control_request`. -/
def ControlObjects.loopbackRequest (o : ControlObjects) (r : CtrlRequest) : ControlReply :=
  if r.deviceToHost ∧ r.bRequest = 6 then o.getDescriptor r
  else if r.deviceToHost ∧ r.bRequest = 8 then .copy [1] 1
  else if r.deviceToHost ∧ r.bRequest = 10 then .copy [1] 1
  else .unanswered

/-- `DeviceProxy_dot11::control_request`, by what `vendor_request` does; its result is not returned. -/
def ControlObjects.dot11Request (o : ControlObjects) (vendorRequest : CtrlRequest → ControlReply)
    (r : CtrlRequest) : ControlReply :=
  if r.deviceToHost ∧ r.bRequest = 6 then o.getDescriptor r
  else if r.bRequest = 8 then .copy [1] 1
  else if r.bRequest = 9 then .unanswered
  else if r.bRequest = 10 then .copy [1] 1
  else if r.bRequestType &&& 0x40 ≠ 0 then { vendorRequest r with ret := 0 }
  else .unanswered

/-! ## What a request asks for -/

namespace ControlObjects

/-- The object a device-to-host request names by its number, and the descriptor type, index and language
of a GET_DESCRIPTOR. -/
def requested (o : ControlObjects) (r : CtrlRequest) : Option (List Byte) :=
  let idx := r.wValue.toUInt8
  if r.bRequest = 6 then
    match (r.wValue >>> 8).toNat with
    | 1 => some o.device
    | 2 => if idx < o.bNumConfigurations then some (configBlock o.config o.interface o.eps) else none
    | 3 =>
      if idx = 0 ∨ r.wIndex = 0x409 then
        (o.strings[idx.toNat]?).map fun string =>
          string.descriptor.bytes.take string.descriptor.bLength.toNat
      else none
    | _ => none
  else if r.bRequest = 8 then some [o.config.bConfigurationValue]
  else if r.bRequest = 10 then some [o.interface.bAlternateSetting]
  else none

end ControlObjects

/-- A result of 0 comes with the first `*nbytes` bytes of the object, and no more than were asked for. -/
def ControlReply.Answers (reply : ControlReply) (object : Option (List Byte)) (wLength : UInt16) : Prop :=
  reply.ret = 0 → ∃ bytes n, object = some bytes ∧ reply.nbytes = some n ∧ n ≤ wLength.toNat ∧
    n ≤ bytes.length ∧ reply.written = bytes.take n

/-- The descriptor type of a GET_DESCRIPTOR. -/
def CtrlRequest.descriptorType (r : CtrlRequest) : ℕ := (r.wValue >>> 8).toNat

/-- A GET_DESCRIPTOR for a type the devices know, with room for a whole device descriptor; or a
GET_CONFIGURATION with room for its byte. -/
def CtrlRequest.Answerable (r : CtrlRequest) : Prop :=
  (r.bRequest = 6 ∧ (r.descriptorType = 1 ∧ 18 ≤ r.wLength.toNat ∨ r.descriptorType ∈ [2, 3, 6, 7])) ∨
    (r.bRequest = 8 ∧ 1 ≤ r.wLength.toNat)

/-! ## Which requests are answered -/

section Answers

variable {o : ControlObjects} {r : CtrlRequest} {object : Option (List Byte)} {bytes full : List Byte}
  {wLength : UInt16}

open ControlReply

theorem answers_stall : stall.Answers object wLength :=
  fun h => absurd h (by decide)

theorem not_answers_unanswered : ¬ unanswered.Answers object wLength := by
  intro h
  obtain ⟨bytes, n, -, hn, -⟩ := h rfl
  cases hn

theorem answers_copy_iff {n : ℕ} (hn : n ≤ bytes.length) :
    (ControlReply.copy bytes n).Answers object wLength ↔
      n ≤ wLength.toNat ∧ ∃ full, object = some full ∧ bytes.take n <+: full := by
  have hlen : (bytes.take n).length = n := List.length_take_of_le hn
  constructor
  · intro h
    obtain ⟨full, m, hfull, hm, hle, -, hbytes⟩ := h rfl
    obtain rfl : n = m := Option.some.inj hm
    exact ⟨hle, full, hfull, (show bytes.take n = full.take n from hbytes) ▸ List.take_prefix _ _⟩
  · rintro ⟨hle, full, hfull, hprefix⟩ -
    have hcut := List.prefix_iff_eq_take.1 hprefix
    rw [hlen] at hcut
    exact ⟨full, n, hfull, rfl, hle, hlen ▸ hprefix.length_le, hcut⟩

theorem getDescriptor_answers_iff (o : ControlObjects) (h : r.bRequest = 6) :
    (o.getDescriptor r).Answers (o.requested r) r.wLength ↔
      r.descriptorType = 1 ∧ 18 ≤ r.wLength.toNat ∨ r.descriptorType ∈ [2, 3, 6, 7] := by
  unfold ControlObjects.getDescriptor ControlObjects.requested CtrlRequest.descriptorType
  rw [if_pos h]
  dsimp only
  generalize (r.wValue >>> 8).toNat = t
  match t with
  | 1 =>
    have hlen : (18 : Byte).toNat ≤ o.device.length := by
      rw [o.device_length]
      decide
    have hwhole : o.device.take (18 : Byte).toNat <+: o.device := List.take_prefix _ _
    show (ControlReply.copy o.device (o.device.getD 0 0).toNat).Answers (some o.device) r.wLength ↔ _
    rw [o.device_bLength, answers_copy_iff hlen, and_iff_left ⟨o.device, rfl, hwhole⟩]
    simp
  | 2 =>
    refine iff_of_true ?_ (by simp)
    by_cases hidx : o.bNumConfigurations ≤ r.wValue.toUInt8
    · rw [if_pos hidx]
      exact answers_stall
    · rw [if_neg hidx, if_pos (UInt8.not_le.1 hidx)]
      refine (answers_copy_iff ?_).2 ⟨Nat.min_le_right _ _, _, rfl, List.take_prefix _ _⟩
      rw [← o.config_length]
      exact Nat.min_le_left _ _
  | 3 =>
    refine iff_of_true ?_ (by simp)
    by_cases hlang : 0 < r.wValue.toUInt8 ∧ r.wIndex ≠ 0x409
    · rw [if_pos hlang]
      exact answers_stall
    · have hok : r.wValue.toUInt8 = 0 ∨ r.wIndex = 0x409 := by
        by_contra hno
        rw [not_or] at hno
        exact hlang ⟨UInt8.pos_iff_ne_zero.2 hno.1, hno.2⟩
      rw [if_neg hlang, if_pos hok]
      cases hstring : o.strings[r.wValue.toUInt8.toNat]? with
      | none => exact answers_stall
      | some string =>
        have hblock := o.string_length string (List.mem_of_getElem? hstring)
        refine (answers_copy_iff (Nat.le_trans (Nat.min_le_left _ _) hblock)).2 ?_
        exact ⟨Nat.min_le_right _ _, _, rfl, List.take_prefix_take_left (Nat.min_le_left _ _)⟩
  | 6 => exact iff_of_true answers_stall (by simp)
  | 7 => exact iff_of_true answers_stall (by simp)
  | 0 => exact iff_of_false not_answers_unanswered (by simp)
  | 4 => exact iff_of_false not_answers_unanswered (by simp)
  | 5 => exact iff_of_false not_answers_unanswered (by simp)
  | n + 8 => exact iff_of_false not_answers_unanswered (by simp)

theorem answers_byte_iff {v w : Byte} :
    (ControlReply.copy [v] 1).Answers (some [w]) wLength ↔ v = w ∧ 1 ≤ wLength.toNat := by
  rw [answers_copy_iff (Nat.le_refl 1), and_comm]
  refine and_congr_left fun _ => ?_
  constructor
  · rintro ⟨full, hfull, hprefix⟩
    obtain rfl : [w] = full := Option.some.inj hfull
    exact (List.cons_prefix_cons.1 hprefix).1
  · rintro rfl
    exact ⟨[v], rfl, List.prefix_rfl⟩

theorem loopbackRequest_answers_iff (o : ControlObjects) (hconfig : o.config.bConfigurationValue = 1)
    (hinterface : o.interface.bAlternateSetting = 0) (hd : r.deviceToHost = true) :
    (o.loopbackRequest r).Answers (o.requested r) r.wLength ↔ r.Answerable := by
  unfold CtrlRequest.Answerable
  by_cases h6 : r.bRequest = 6
  · rw [ControlObjects.loopbackRequest, if_pos ⟨hd, h6⟩, getDescriptor_answers_iff o h6]
    simp [h6]
  by_cases h8 : r.bRequest = 8
  · rw [ControlObjects.loopbackRequest, if_neg fun h => h6 h.2, if_pos ⟨hd, h8⟩,
      ControlObjects.requested, if_neg h6, if_pos h8, hconfig, answers_byte_iff]
    simp [h8]
  have hno : ¬ ((r.bRequest = 6 ∧ (r.descriptorType = 1 ∧ 18 ≤ r.wLength.toNat ∨
      r.descriptorType ∈ [2, 3, 6, 7])) ∨ (r.bRequest = 8 ∧ 1 ≤ r.wLength.toNat)) := by
    rintro (⟨h, -⟩ | ⟨h, -⟩)
    · exact h6 h
    · exact h8 h
  by_cases h10 : r.bRequest = 10
  · rw [ControlObjects.loopbackRequest, if_neg fun h => h6 h.2, if_neg fun h => h8 h.2,
      if_pos ⟨hd, h10⟩, ControlObjects.requested, if_neg h6, if_neg h8, if_pos h10, hinterface,
      answers_byte_iff]
    exact iff_of_false (fun h => absurd h.1 (by decide)) hno
  · rw [ControlObjects.loopbackRequest, if_neg fun h => h6 h.2, if_neg fun h => h8 h.2,
      if_neg fun h => h10 h.2]
    exact iff_of_false not_answers_unanswered hno

/-- The dot11 device hands the request to `vendor_request`. -/
def CtrlRequest.Vendor (r : CtrlRequest) : Prop :=
  r.bRequestType &&& 0x40 ≠ 0 ∧ r.bRequest ∉ [6, 8, 9, 10]

/-- Up to there the two devices answer alike. -/
theorem dot11Request_eq (o : ControlObjects) (vendorRequest : CtrlRequest → ControlReply)
    (hd : r.deviceToHost = true) (hv : ¬ r.Vendor) :
    o.dot11Request vendorRequest r = o.loopbackRequest r := by
  unfold ControlObjects.dot11Request ControlObjects.loopbackRequest
  simp only [hd, true_and]
  by_cases h6 : r.bRequest = 6
  · rw [if_pos h6, if_pos h6]
  rw [if_neg h6, if_neg h6]
  by_cases h8 : r.bRequest = 8
  · rw [if_pos h8, if_pos h8]
  rw [if_neg h8, if_neg h8]
  by_cases h9 : r.bRequest = 9
  · rw [if_pos h9, if_neg (by rw [h9]; decide)]
  rw [if_neg h9]
  by_cases h10 : r.bRequest = 10
  · rw [if_pos h10, if_pos h10]
  rw [if_neg h10, if_neg h10, if_neg fun h => hv ⟨h, by simp [h6, h8, h9, h10]⟩]

/-- **Which device-to-host requests the emulated devices answer as they should.**  The same ones for both,
as far as the dot11 device answers itself. -/
theorem controlRequest_answers_iff (charSigned : Bool) (r : CtrlRequest) (hd : r.deviceToHost = true) :
    (∀ vendorId productId,
      ((loopbackObjects charSigned vendorId productId).loopbackRequest r).Answers
          ((loopbackObjects charSigned vendorId productId).requested r) r.wLength ↔ r.Answerable) ∧
      (¬ r.Vendor → ∀ vendorRequest,
        ((dot11Objects charSigned).dot11Request vendorRequest r).Answers
          ((dot11Objects charSigned).requested r) r.wLength ↔ r.Answerable) := by
  refine ⟨fun vendorId productId => loopbackRequest_answers_iff _ rfl rfl hd, fun hv vendorRequest => ?_⟩
  rw [dot11Request_eq _ _ hd hv]
  exact loopbackRequest_answers_iff _ rfl rfl hd

/-- The host first asks for the first eight bytes of the device descriptor, and gets 18. -/
theorem controlRequest_answers_fails :
    ¬ ((loopbackObjects true 0xffff 0xffff).loopbackRequest (UsbProxy.getDescriptor 8).ctrlReq).Answers
        ((loopbackObjects true 0xffff 0xffff).requested (UsbProxy.getDescriptor 8).ctrlReq) 8 ∧
      ¬ ((dot11Objects true).dot11Request (fun _ => stall) (UsbProxy.getDescriptor 8).ctrlReq).Answers
        ((dot11Objects true).requested (UsbProxy.getDescriptor 8).ctrlReq) 8 := by
  have hno : ¬ (UsbProxy.getDescriptor 8).ctrlReq.Answerable := by
    unfold CtrlRequest.Answerable
    decide
  have hv : ¬ (UsbProxy.getDescriptor 8).ctrlReq.Vendor := by
    unfold CtrlRequest.Vendor
    decide
  refine ⟨fun h => hno ((loopbackRequest_answers_iff _ rfl rfl rfl).1 h), fun h => hno ?_⟩
  rw [dot11Request_eq _ _ rfl hv] at h
  exact (loopbackRequest_answers_iff _ rfl rfl rfl).1 h

/-- The whole device descriptor. -/
theorem controlRequest_answers_eighteen :
    ((loopbackObjects true 0xffff 0xffff).loopbackRequest (UsbProxy.getDescriptor 18).ctrlReq).Answers
        ((loopbackObjects true 0xffff 0xffff).requested (UsbProxy.getDescriptor 18).ctrlReq) 18 ∧
      ((dot11Objects true).dot11Request (fun _ => stall) (UsbProxy.getDescriptor 18).ctrlReq).Answers
        ((dot11Objects true).requested (UsbProxy.getDescriptor 18).ctrlReq) 18 := by
  have hanswerable : (UsbProxy.getDescriptor 18).ctrlReq.Answerable := .inl ⟨rfl, .inl ⟨rfl, by decide⟩⟩
  have h := controlRequest_answers_iff true (UsbProxy.getDescriptor 18).ctrlReq rfl
  exact ⟨(h.1 0xffff 0xffff).2 hanswerable, (h.2 (by unfold CtrlRequest.Vendor; decide) _).2 hanswerable⟩

/-- What the relay makes of an answered request: the reply packet has the length the device gave, and the
object as far as that goes. -/
theorem readFromDevice_of_answers {reply : ControlReply} {s : SetupPacket}
    (h : reply.Answers object s.ctrlReq.wLength) (hret : reply.ret = 0) (length : ℤ) :
    ∃ full n, object = some full ∧
      (readFromDevice s length (.success reply.written)).ctrlReq.wLength.toNat = n ∧
      ((readFromDevice s length (.success reply.written)).data.getD []).take n = full.take n := by
  obtain ⟨full, n, hfull, -, hle, hlen, hwritten⟩ := h hret
  have hmoved : Outcome.moved s.ctrlReq.wLength (.success reply.written) = full.take n := by
    rw [Outcome.moved, hwritten, List.take_take, Nat.min_eq_right hle]
  have hcount : (full.take n).length = n := List.length_take_of_le hlen
  refine ⟨full, n, hfull, ?_, ?_⟩
  · have hbound := s.ctrlReq.wLength.toNat_lt
    show (UInt16.ofInt (Outcome.moved s.ctrlReq.wLength (.success reply.written)).length).toNat = n
    rw [hmoved, hcount, toNat_ofInt_of_lt (Nat.lt_of_le_of_lt hle hbound)]
  · show ((Outcome.moved s.ctrlReq.wLength (.success reply.written)).takeD _ 0).take n = _
    rw [hmoved, takeD_of_length_le 0 (hcount.symm ▸ hle)]
    exact List.take_left' hcount

end Answers

end UsbProxy
