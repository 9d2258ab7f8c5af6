import UsbProxy.MassStorage
import UsbProxy.PacketFilter

/-!
# The filter plugins

The nine classes of `Plugins/Filters` with the `filter_packet` and `filter_setup_packet` bodies they
define.  What an observer writes (a log line, a capture record, a message) is kept as the list of
records it has written so far.

`Params` and `FilterClass.declares` record how each class header declares `filter_packet`: the base
class has the virtual `filter_packet(Packet*, zmq::socket_t*)`, so only a declaration with both
parameters overrides it, and one with the packet alone is a new function that hides it.
-/

namespace UsbProxy

variable (charSigned : Bool)

/-! ## The bodies -/

/-- `PacketFilter_ROT13::filter_packet`. -/
def rot13 (packet : Packet) : Packet :=
  (List.range' 2 6).foldl (fun p i =>
    if p.byte i ≤ 0x1d ∧ 0x04 ≤ p.byte i then
      if p.byte i ≤ 0x10 then p.setByte i (p.byte i + 13) else p.setByte i (p.byte i - 13)
    else p) packet

/-- `PacketFilter_UDPHID::filter_packet`, with the report buffer of the injector. -/
def udphid (reportBuffer : List Byte) (packet : Packet) : Packet :=
  if packet.wLength ≠ 20 then packet
  else
    let p := packet.setByte 2 (packet.byte 2 ||| reportBuffer.getD 2 0)
    let p := p.setByte 3 (p.byte 3 ||| reportBuffer.getD 3 0)
    (List.range' 4 10).foldl (fun p i =>
      if reportBuffer.getD i 0 ≠ 0 then p.setByte i (reportBuffer.getD i 0) else p) p

/-- `PacketFilter_KeyLogger`; a call of `keyPressed` is the pair of its arguments. -/
structure KeyLogger where
  lastReport : List Byte
  pressed : List (Byte × Byte)
  deriving DecidableEq, Repr

namespace KeyLogger

/-- `packet->data[i] == lastReport[j]` for some `j`: an unsigned byte against `char`s. -/
def found (k : KeyLogger) (code : Byte) : Bool :=
  (List.range 8).any fun j => code.toNat == charInt charSigned (k.lastReport.getD j 0)

def filterPacket (k : KeyLogger) (packet : Packet) : KeyLogger :=
  let newMods := packet.byte 0 &&& ~~~ k.lastReport.getD 0 0
  let news := ((List.range' 2 6).map packet.byte).filter fun code => !k.found charSigned code
  let calls := if news.isEmpty then [(0, newMods)] else news.map fun code => (code, packet.byte 0)
  { lastReport := (List.range 8).map packet.byte, pressed := k.pressed ++ calls }

end KeyLogger

/-- `PacketFilter_Callback`.  A callback may keep state of its own, so it is a function of the calls
made before, too. -/
structure Callback where
  cb : Option (List Packet → Packet → Packet)
  cbSetup : Option (List (SetupPacket × Bool) → SetupPacket → Bool → SetupPacket)
  seen : List Packet
  seenSetup : List (SetupPacket × Bool)

namespace Callback

def filterPacket (c : Callback) (packet : Packet) : Callback × Packet :=
  match c.cb with
  | none => (c, packet)
  | some cb => ({ c with seen := c.seen ++ [packet] }, cb c.seen packet)

def filterSetupPacket (c : Callback) (packet : SetupPacket) (directionOut : Bool) :
    Callback × SetupPacket :=
  match c.cbSetup with
  | none => (c, packet)
  | some cb =>
    ({ c with seenSetup := c.seenSetup ++ [(packet, directionOut)] }, cb c.seenSetup packet
      directionOut)

@[simp] theorem cbSetup_filterSetupPacket (c : Callback) (packet : SetupPacket) (directionOut : Bool) :
    (c.filterSetupPacket packet directionOut).1.cbSetup = c.cbSetup := by
  unfold filterSetupPacket
  cases h : c.cbSetup with
  | none => exact h
  | some cb => rfl

end Callback

/-- One line of `PacketFilter_StreamLog`. -/
inductive LogLine
  | data (bEndpoint : Byte) (wLength : UInt16) (bytes : List Byte)
  | setup (ctrlReq : List Byte) (bytes : List Byte)
  | setupOnly (ctrlReq : List Byte)
  deriving DecidableEq, Repr

/-- The bytes a setup filter reads at `data`: `wLength` of them. -/
def SetupPacket.dataRead (p : SetupPacket) : List Byte :=
  (p.data.getD []).takeD p.ctrlReq.wLength.toNat 0

def streamLogSetup (packet : SetupPacket) : LogLine :=
  if packet.ctrlReq.wLength ≠ 0 ∧ packet.data.isSome then
    .setup packet.ctrlReq.bytes packet.dataRead
  else .setupOnly packet.ctrlReq.bytes

/-- A `pcap_usb_header` with the bytes after it, in the fields that are not constants. -/
structure PcapRecord where
  id : UInt64
  endpointNumber : Byte
  transferType : Byte
  setupFlag : Byte
  complete : Bool
  setup : Option CtrlRequest
  bytes : List Byte
  deriving DecidableEq, Repr

structure PcapLogger where
  pktCount : UInt64
  file : List PcapRecord
  deriving DecidableEq, Repr

namespace PcapLogger

def dump (l : PcapLogger) (r : PcapRecord) : PcapLogger :=
  { pktCount := l.pktCount + 1, file := l.file ++ [{ r with id := l.pktCount + 1 }] }

def filterPacket (l : PcapLogger) (packet : Packet) : PcapLogger :=
  let bytes := if packet.data.isSome then packet.payload else []
  l.dump { id := 0, endpointNumber := packet.bEndpoint, transferType := 3, setupFlag := 1
           complete := !bytes.isEmpty, setup := none, bytes }

def filterSetupPacket (l : PcapLogger) (packet : SetupPacket) : PcapLogger :=
  let bytes := if packet.data.isSome then packet.dataRead else []
  l.dump { id := 0, endpointNumber := 0, transferType := 2, setupFlag := 0
           complete := !bytes.isEmpty, setup := some packet.ctrlReq, bytes }

end PcapLogger

/-- `PacketFilter_Power::filter_setup_packet`: bytes 7 and 8 of a configuration descriptor are
`bmAttributes` and `bMaxPower`.  A write through a null `data` is not followed. -/
def powerSetup (packet : SetupPacket) (directionIn : Bool) : SetupPacket :=
  if directionIn ∧ packet.ctrlReq.bRequest = 6 ∧ packet.ctrlReq.wValue = 2 then
    { packet with toPacket := (packet.toPacket.setByte 7 0x80).setByte 8 0x32 }
  else packet

/-! ## Plugin objects -/

/-- The members of a plugin object below its base class. -/
inductive FilterClass
  | callback (c : Callback)
  | keyLogger (k : KeyLogger)
  | massStorage (m : MassStorage)
  | pcapLogger (l : PcapLogger)
  | power
  | rot13
  | streamLog (file : List LogLine)
  | udphid (reportBuffer : List Byte)
  | zeroMQ (sent : List (List Byte × Byte))

/-- The parameter list of a `filter_packet` declaration. -/
inductive Params
  | packet
  | packetSocket
  deriving DecidableEq, Repr

/-- How the class header declares `filter_packet`, if it does. -/
def FilterClass.declares : FilterClass → Option Params
  | callback _ | keyLogger _ | massStorage _ | rot13 | udphid _ => some .packet
  | pcapLogger _ | streamLog _ | zeroMQ _ => some .packetSocket
  | power => none

structure Plugin where
  base : PacketFilter
  cls : FilterClass

namespace Plugin

/-- The `filter_packet` body the plugin's class defines, the base class's where it defines none. -/
def filterPacket (f : Plugin) (p : Packet) : Plugin × Packet :=
  match f.cls with
  | .callback c => let (c, p) := c.filterPacket p; ({ f with cls := .callback c }, p)
  | .keyLogger k => ({ f with cls := .keyLogger (k.filterPacket charSigned p) }, p)
  | .massStorage m =>
    let (m, p) := m.filterPacket charSigned p; ({ f with cls := .massStorage m }, p)
  | .pcapLogger l => ({ f with cls := .pcapLogger (l.filterPacket p) }, p)
  | .power => (f, p)
  | .rot13 => (f, UsbProxy.rot13 p)
  | .streamLog file =>
    ({ f with cls := .streamLog (file ++ [.data p.bEndpoint p.wLength p.payload]) }, p)
  | .udphid reportBuffer => (f, UsbProxy.udphid reportBuffer p)
  | .zeroMQ sent => ({ f with cls := .zeroMQ (sent ++ [(p.payload, p.bEndpoint)]) }, p)

/-- `filter_setup_packet`; every declaration of it has the base class's parameters. -/
def filterSetupPacket (f : Plugin) (s : SetupPacket) (directionOut : Bool) :
    Plugin × SetupPacket :=
  match f.cls with
  | .callback c =>
    let (c, s) := c.filterSetupPacket s directionOut; ({ f with cls := .callback c }, s)
  | .pcapLogger l => ({ f with cls := .pcapLogger (l.filterSetupPacket s) }, s)
  | .power => (f, powerSetup s directionOut)
  | .streamLog file => ({ f with cls := .streamLog (file ++ [streamLogSetup s]) }, s)
  | .keyLogger _ | .massStorage _ | .rot13 | .udphid _ | .zeroMQ _ => (f, s)

end Plugin

end UsbProxy
