import UsbProxy.Packet

/-!
# The filter base class

`PacketFilter` of `PacketFilter.h`: the masked header every plugin object carries and the two tests
the relayers make with it before they call the plugin.
-/

namespace UsbProxy

structure PacketFilter where
  packetHeader : List Byte
  packetHeaderMask : List Byte
  packetHeaderMaskLength : Byte
  packetHeaderSetupOut : Bool
  packetHeaderSetupIn : Bool
  deriving DecidableEq, Repr

namespace PacketFilter

/-- `PacketFilter::PacketFilter`: an empty mask, both setup directions enabled. -/
def new : PacketFilter :=
  { packetHeader := List.replicate 8 0, packetHeaderMask := List.replicate 8 0
    packetHeaderMaskLength := 0, packetHeaderSetupOut := true, packetHeaderSetupIn := true }

/-- `set_packet_filter`: neither the header nor the mask is stored. -/
def setPacketFilter (f : PacketFilter) (_header mask : List Byte) : PacketFilter :=
  { f with
    packetHeaderMaskLength := (List.range 8).foldl
      (fun n i => if mask.getD i 0 ≠ 0 then UInt8.ofNat i else n) 1 }

/-- The loop both tests share: every masked byte below the mask length agrees with the header. -/
def headerMatches (f : PacketFilter) (data : ℕ → Byte) : Bool :=
  (List.range f.packetHeaderMaskLength.toNat).all fun i =>
    let mask := f.packetHeaderMask.getD i 0
    !(mask != 0 && (mask &&& data i) != (mask &&& f.packetHeader.getD i 0))

def testPacket (f : PacketFilter) (packet : Packet) : Bool :=
  if packet.wLength.toNat < f.packetHeaderMaskLength.toNat then false
  else f.headerMatches packet.byte

/-- The direction guard of the source is kept as it stands. -/
def testSetupPacket (f : PacketFilter) (packet : SetupPacket) (directionOut : Bool) : Bool :=
  if !((f.packetHeaderSetupOut || !directionOut) || (f.packetHeaderSetupIn || directionOut)) then
    false
  else f.headerMatches fun i => packet.ctrlReq.bytes.getD i 0

end PacketFilter

end UsbProxy
