import UsbProxy.Configuration
import UsbProxy.Filters

/-!
# Where a plugin wants to be attached

The four criteria structs of `Criteria.h` and their tests.  A `short` or `int` of -1 stands for any
value.
-/

namespace UsbProxy

/-- `usb_device_descriptor`, in the fields `criteria_device` looks at. -/
structure UsbDeviceDescriptor where
  bDeviceClass : Byte
  bDeviceSubClass : Byte
  bDeviceProtocol : Byte
  bMaxPacketSize0 : Byte
  idVendor : UInt16
  idProduct : UInt16
  bcdDevice : UInt16

/-- `want!=-1 && want!=value` does not hold. -/
def wanted (want : ℤ) (value : ℕ) : Bool := want == -1 || want == value

/-- `(mask&want)!=(mask&value)` does not hold. -/
def masked (mask want value : Byte) : Bool := mask &&& want == mask &&& value

structure CriteriaEndpoint where
  address : Byte
  addressMask : Byte
  attributes : Byte
  attributesMask : Byte
  packetSizeMin : UInt16
  packetSizeMax : UInt16
  intervalMin : Byte
  intervalMax : Byte

namespace CriteriaEndpoint

def new : CriteriaEndpoint :=
  { address := 0, addressMask := 0, attributes := 0, attributesMask := 0
    packetSizeMin := 0, packetSizeMax := 65535, intervalMin := 0, intervalMax := 255 }

def test (c : CriteriaEndpoint) (endpoint : Endpoint) : Bool :=
  let desc := endpoint.descriptor
  masked c.addressMask c.address desc.bEndpointAddress &&
    masked c.attributesMask c.attributes desc.bmAttributes &&
    (c.packetSizeMin ≤ desc.wMaxPacketSize && desc.wMaxPacketSize ≤ c.packetSizeMax) &&
    (c.intervalMin ≤ desc.bInterval && desc.bInterval ≤ c.intervalMax)

end CriteriaEndpoint

structure CriteriaInterface where
  number : ℤ
  alternate : ℤ
  deviceClass : ℤ
  subClass : ℤ
  protocol : ℤ

namespace CriteriaInterface

def new : CriteriaInterface :=
  { number := -1, alternate := -1, deviceClass := -1, subClass := -1, protocol := -1 }

def test (c : CriteriaInterface) (interface : Interface) : Bool :=
  let desc := interface.descriptor
  wanted c.number desc.bInterfaceNumber.toNat && wanted c.alternate desc.bAlternateSetting.toNat &&
    wanted c.deviceClass desc.bInterfaceClass.toNat &&
    wanted c.subClass desc.bInterfaceSubClass.toNat &&
    wanted c.protocol desc.bInterfaceProtocol.toNat

end CriteriaInterface

structure CriteriaConfiguration where
  number : ℤ
  attributes : Byte
  attributesMask : Byte

namespace CriteriaConfiguration

def new : CriteriaConfiguration := { number := -1, attributes := 0, attributesMask := 0 }

def test (c : CriteriaConfiguration) (configuration : Configuration) : Bool :=
  let desc := configuration.descriptor
  wanted c.number desc.bConfigurationValue.toNat &&
    masked c.attributesMask c.attributes desc.bmAttributes

end CriteriaConfiguration

structure CriteriaDevice where
  deviceClass : ℤ
  subClass : ℤ
  protocol : ℤ
  ep0packetSizeMin : Byte
  ep0packetSizeMax : Byte
  vendor : ℤ
  product : ℤ
  release : ℤ

namespace CriteriaDevice

def new : CriteriaDevice :=
  { deviceClass := -1, subClass := -1, protocol := -1, ep0packetSizeMin := 0, ep0packetSizeMax := 255
    vendor := -1, product := -1, release := -1 }

def test (c : CriteriaDevice) (desc : UsbDeviceDescriptor) : Bool :=
  wanted c.deviceClass desc.bDeviceClass.toNat && wanted c.subClass desc.bDeviceSubClass.toNat &&
    wanted c.protocol desc.bDeviceProtocol.toNat &&
    (c.ep0packetSizeMin ≤ desc.bMaxPacketSize0 && desc.bMaxPacketSize0 ≤ c.ep0packetSizeMax) &&
    wanted c.vendor desc.idVendor.toNat && wanted c.product desc.idProduct.toNat &&
    wanted c.release desc.bcdDevice.toNat

end CriteriaDevice

/-- The four public members of a plugin that say where it belongs. -/
structure Criteria where
  endpoint : CriteriaEndpoint
  interface : CriteriaInterface
  configuration : CriteriaConfiguration
  device : CriteriaDevice

def Criteria.new : Criteria :=
  { endpoint := .new, interface := .new, configuration := .new, device := .new }

/-- A filter of the manager. -/
structure AttachedFilter extends Criteria where
  plugin : Plugin

/-! ## The defaults -/

theorem masked_zero (want value : Byte) : masked 0 want value = true := by
  unfold masked
  rw [UInt8.zero_and, UInt8.zero_and, beq_self_eq_true]

/-- What a plugin that sets no criterion gets: everything. -/
theorem Criteria.new_test (ep : Endpoint) (i : Interface) (c : Configuration)
    (d : UsbDeviceDescriptor) :
    new.endpoint.test ep = true ∧ new.interface.test i = true ∧ new.configuration.test c = true ∧
      new.device.test d = true := by
  refine ⟨?_, rfl, ?_, ?_⟩
  · have hsize : ep.descriptor.wMaxPacketSize ≤ 65535 :=
      UInt16.le_iff_toNat_le.2 (Nat.le_of_lt_succ ep.descriptor.wMaxPacketSize.toNat_lt)
    have hinterval : ep.descriptor.bInterval ≤ 255 :=
      UInt8.le_iff_toNat_le.2 (Nat.le_of_lt_succ ep.descriptor.bInterval.toNat_lt)
    have h0 : (0 : UInt16) ≤ ep.descriptor.wMaxPacketSize := UInt16.le_iff_toNat_le.2 (Nat.zero_le _)
    have h1 : (0 : Byte) ≤ ep.descriptor.bInterval := UInt8.le_iff_toNat_le.2 (Nat.zero_le _)
    simp [new, CriteriaEndpoint.new, CriteriaEndpoint.test, masked_zero, hsize, hinterval, h0, h1]
  · exact masked_zero _ _
  · have hle : d.bMaxPacketSize0 ≤ 255 :=
      UInt8.le_iff_toNat_le.2 (Nat.le_of_lt_succ d.bMaxPacketSize0.toNat_lt)
    have h0 : (0 : Byte) ≤ d.bMaxPacketSize0 := UInt8.le_iff_toNat_le.2 (Nat.zero_le _)
    simp [new, CriteriaDevice.new, CriteriaDevice.test, wanted, hle, h0]

end UsbProxy
