import UsbProxy.Packet

/-!
# The mass storage plugin

`PacketFilter_MassStorage`: it follows the bulk-only transport (command wrapper, data stage, status
wrapper), withholds writes, keeps a block cache and answers for the device through the pipe its
injector half reads.
-/

namespace UsbProxy

/-- `IDLE`, `COMMAND`, `READ`, `WRITE`, `STATUS` and `UNKNOWN`: the plugin's state and the type it
gives a packet. -/
inductive Stage
  | idle | command | read | write | status | unknown
  deriving DecidableEq, Repr

def BLOCK_SIZE : ℕ := 512

structure MassStorage where
  state : Stage
  tag : List Byte
  blockWrites : Bool
  cacheBlocks : Bool
  inbandSignalling : Bool
  inbandBlockWrites : Bool
  unblockPassword : List Byte
  blockPassword : List Byte
  blockCount : UInt32
  blockOffset : UInt32
  baseAddress : UInt32
  blockCache : UInt32 → Option (List Byte)
  /-- Tags written to `pipe_fd[1]` and not read yet. -/
  pipe : List (List Byte)

namespace MassStorage

/-- `memcpy(dst, src, n)` on blocks; what lies outside either block is not followed. -/
def memcpy (dst src : List Byte) (n : ℕ) : List Byte :=
  (src.take n).take dst.length ++ dst.drop (min n src.length)

def queuePacket (m : MassStorage) : MassStorage := { m with pipe := m.pipe ++ [m.tag] }

def cacheWrite (m : MassStorage) (address : UInt32) (data : List Byte) : MassStorage :=
  { m with blockCache := fun a =>
      if a = address then some (data.takeD BLOCK_SIZE 0) else m.blockCache a }

/-- A block not in the cache enters it; a cached one, which may have been written, replaces the
packet's data. -/
def cacheRead (m : MassStorage) (address : UInt32) (data : List Byte) : MassStorage × List Byte :=
  match m.blockCache address with
  | none => (m.cacheWrite address data, data)
  | some block => (m, memcpy data block BLOCK_SIZE)

/-- The matching loop of `check_for_password` from index `i` on, `n` indices left.  The data bytes
are unsigned, those of the password are `char`. -/
def findPassword (charSigned : Bool) (password data : List Byte) : (n i ptr : ℕ) → Bool
  | 0, _, _ => false
  | n + 1, i, ptr =>
    let ptr := if (data.getD i 0).toNat = charInt charSigned (password.getD ptr 0) then ptr + 1 else 0
    if ptr = password.length then true
    else findPassword charSigned password data n (i + 1) ptr

def checkForPassword (charSigned : Bool) (m : MassStorage) (data : List Byte) : MassStorage :=
  let found (password : List Byte) : Bool :=
    findPassword charSigned password data (BLOCK_SIZE - password.length) 0 0
  if m.inbandBlockWrites then
    if found m.unblockPassword then { m with inbandBlockWrites := false } else m
  else
    if found m.blockPassword then { m with inbandBlockWrites := true } else m

/-- The signature test: a wrapper of the given length starting `"USB"` and a fourth byte. -/
def isWrapper (p : Packet) (length : UInt16) (fourth : Byte) : Bool :=
  p.wLength == length && p.byte 0 == 0x55 && p.byte 1 == 0x53 && p.byte 2 == 0x42 &&
    p.byte 3 == fourth

def packetType (m : MassStorage) (p : Packet) : Stage :=
  let type := if isWrapper p 31 0x43 then .command else .unknown
  let type := if isWrapper p 13 0x53 then .status else type
  if type = .unknown ∧ 64 < p.wLength then m.state else type

/-- `block_count`, `base_address` and `block_offset` from a READ(10) or WRITE(10) wrapper. -/
def loadCommand (m : MassStorage) (p : Packet) : MassStorage :=
  { m with
    blockCount := ((p.byte 0x16).toUInt32 <<< 8) ||| (p.byte 0x17).toUInt32
    baseAddress := ((p.byte 0x11).toUInt32 <<< 24) ||| ((p.byte 0x12).toUInt32 <<< 16) |||
      ((p.byte 0x13).toUInt32 <<< 8) ||| (p.byte 0x14).toUInt32
    blockOffset := 0 }

def filterCommand (m : MassStorage) (p : Packet) : MassStorage × Packet :=
  if p.byte 0x0f = 0x28 then ({ m with state := .read }.loadCommand p, p)
  else if p.byte 0x0f = 0x2a then
    let blockWrites := if m.inbandSignalling then m.inbandBlockWrites else m.blockWrites
    let m := { m with
      state := .write
      blockWrites
      tag := [p.byte 0x04, p.byte 0x05, p.byte 0x06, p.byte 0x07] }
    (m.loadCommand p, if blockWrites then { p with transmit := false } else p)
  else (m, p)

def filterWrite (charSigned : Bool) (m : MassStorage) (p : Packet) : MassStorage × Packet :=
  let data := p.data.getD []
  let m := if m.cacheBlocks then m.cacheWrite (m.blockOffset + m.baseAddress) data else m
  let m := if m.inbandSignalling then m.checkForPassword charSigned data else m
  if m.blockWrites then
    let m := { m with blockOffset := m.blockOffset + 1 }
    (if m.blockOffset = m.blockCount then m.queuePacket else m, { p with transmit := false })
  else (m, p)

def filterRead (m : MassStorage) (p : Packet) : MassStorage × Packet :=
  let (m, p) :=
    if m.cacheBlocks then
      let (m, data) := m.cacheRead (m.blockOffset + m.baseAddress) (p.data.getD [])
      (m, p.mapData fun _ => data)
    else (m, p)
  ({ m with blockOffset := m.blockOffset + 1 }, p)

def filterPacket (charSigned : Bool) (m : MassStorage) (p : Packet) : MassStorage × Packet :=
  match m.packetType p with
  | .command => m.filterCommand p
  | .write => m.filterWrite charSigned p
  | .read => m.filterRead p
  | .status => ({ m with state := .idle }, p)
  | .idle | .unknown => (m, p)

end MassStorage

end UsbProxy
