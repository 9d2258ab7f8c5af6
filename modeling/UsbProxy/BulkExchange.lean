import UsbProxy.MassStorage

/-!
# Exchanges of the bulk-only transport

What `PacketFilter_MassStorage` sees on a mass storage device: exchanges of a command wrapper, a
data stage of whole blocks and status wrappers, with the plugin's `filter_packet` applied to one
packet after the other.  The lemmas say how it classifies the packets of an exchange, and what it
does to each class.
-/

namespace UsbProxy

inductive BulkSpeed
  | full
  | high
  deriving DecidableEq, Repr

def BulkSpeed.maxPacketSize : BulkSpeed → UInt16
  | full => 64
  | high => 512

theorem BulkSpeed.eq_high {speed : BulkSpeed} (h : speed ≠ .full) : speed = .high := by
  cases speed with
  | full => exact absurd rfl h
  | high => rfl

/-- The number of blocks in a READ(10) or WRITE(10) wrapper. -/
def Packet.transferBlocks (p : Packet) : UInt32 :=
  ((p.byte 0x16).toUInt32 <<< 8) ||| (p.byte 0x17).toUInt32

/-- The address of the first block in one. -/
def Packet.transferAddress (p : Packet) : UInt32 :=
  ((p.byte 0x11).toUInt32 <<< 24) ||| ((p.byte 0x12).toUInt32 <<< 16) |||
    ((p.byte 0x13).toUInt32 <<< 8) ||| (p.byte 0x14).toUInt32

def Packet.commandTag (p : Packet) : List Byte := [p.byte 0x04, p.byte 0x05, p.byte 0x06, p.byte 0x07]

def Packet.isRead10 (p : Packet) : Bool := p.byte 0x0f == 0x28

def Packet.isWrite10 (p : Packet) : Bool := p.byte 0x0f == 0x2a

/-- The wrapper of a ten-byte command with a small address and a small number of blocks. -/
def Packet.command10 (opcode address blocks : Byte) : Packet :=
  Packet.new 0x02 (some ([0x55, 0x53, 0x42, 0x43, 1, 2, 3, 4, 0, 2 * blocks, 0, 0, 0, 0, 10,
    opcode, 0, 0, 0, 0, address, 0, 0, blocks, 0] ++ List.replicate 6 0)) 31

/-- A command, its data stage of whole blocks cut into packets of the maximum size, and the status
wrappers that come before the next command, if any do. -/
structure BulkExchange (speed : BulkSpeed) where
  command : Packet
  blocks : ℕ
  data : List Packet
  status : List Packet
  isCommand : MassStorage.isWrapper command 31 0x43 = true
  isData : ∀ p ∈ data, p.wLength = speed.maxPacketSize
  isWhole : data.length * speed.maxPacketSize.toNat = blocks * BLOCK_SIZE
  isCounted : command.isRead10 || command.isWrite10 → blocks = command.transferBlocks.toNat
  isStatus : ∀ p ∈ status, MassStorage.isWrapper p 13 0x53 = true

theorem isWrapper_of_mem_nil : ∀ p ∈ ([] : List Packet), MassStorage.isWrapper p 13 0x53 = true :=
  fun _ hp => absurd hp List.not_mem_nil

/-- A packet before and after `filter_packet`, and the tags that were written to the pipe for it. -/
structure FilteredPacket where
  sent : Packet
  left : Packet
  queued : List (List Byte)

namespace MassStorage

/-- The constructor.  The tag, the offset and the base address are not initialised. -/
def new (blockWrites cacheBlocks inbandSignalling : Bool)
    (unblockPassword blockPassword tag : List Byte) (blockOffset baseAddress : UInt32) :
    MassStorage where
  state := .idle
  tag
  blockWrites
  cacheBlocks
  inbandSignalling
  inbandBlockWrites := blockWrites
  unblockPassword
  blockPassword
  blockCount := 0
  blockOffset
  baseAddress
  blockCache _ := none
  pipe := []

variable (charSigned : Bool)

/-- `filter_packet` on packet after packet. -/
def filterAll : MassStorage → List Packet → List FilteredPacket × MassStorage
  | m, [] => ([], m)
  | m, p :: ps =>
    let (next, left) := m.filterPacket charSigned p
    let rest := filterAll next ps
    (⟨p, left, next.pipe.drop m.pipe.length⟩ :: rest.1, rest.2)

def falseStatus (tag : List Byte) : Packet :=
  Packet.new 0x82 (some ([0x55, 0x53, 0x42, 0x53] ++ tag ++ [0, 0, 0, 0, 0])) 13

/-- `get_packets`: it waits for a tag. -/
def getPackets (m : MassStorage) : Option (Packet × MassStorage) :=
  match m.pipe with
  | [] => none
  | tag :: pipe => some (falseStatus tag, { m with pipe })

end MassStorage

/-- What became of an exchange. -/
structure FilteredExchange (speed : BulkSpeed) where
  exchange : BulkExchange speed
  command : List FilteredPacket
  data : List FilteredPacket
  status : List FilteredPacket

namespace MassStorage

variable (charSigned : Bool) {speed : BulkSpeed}

/-- The packets of an exchange in order. -/
def filterExchange (m : MassStorage) (e : BulkExchange speed) : FilteredExchange speed × MassStorage :=
  let (command, m) := m.filterAll charSigned [e.command]
  let (data, m) := m.filterAll charSigned e.data
  let (status, m) := m.filterAll charSigned e.status
  (⟨e, command, data, status⟩, m)

def step (m : MassStorage) (e : BulkExchange speed) : Option MassStorage :=
  some (m.filterExchange charSigned e).2

def observe (m : MassStorage) (e : BulkExchange speed) : FilteredExchange speed :=
  (m.filterExchange charSigned e).1

/-! ## Classification -/

variable {charSigned} {m : MassStorage} {p : Packet}

theorem wLength_of_isWrapper {length : UInt16} {fourth : Byte} (h : isWrapper p length fourth = true) :
    p.wLength = length := by
  unfold isWrapper at h
  simp only [Bool.and_eq_true, beq_iff_eq] at h
  exact h.1.1.1.1

theorem isWrapper_of_wLength_ne {length : UInt16} {fourth : Byte} (h : p.wLength ≠ length) :
    isWrapper p length fourth = false :=
  Bool.eq_false_iff.2 fun hw => h (wLength_of_isWrapper hw)

theorem packetType_command (h : isWrapper p 31 0x43 = true) : m.packetType p = .command := by
  have hstatus : isWrapper p 13 0x53 = false :=
    isWrapper_of_wLength_ne (by rw [wLength_of_isWrapper h]; decide)
  unfold packetType
  rw [h, hstatus]
  rfl

theorem packetType_status (h : isWrapper p 13 0x53 = true) : m.packetType p = .status := by
  unfold packetType
  rw [h]
  rfl

/-- A data packet gets the plugin's state for its type if it is long enough. -/
theorem packetType_data (h : p.wLength = speed.maxPacketSize) :
    m.packetType p = if speed = .high then m.state else .unknown := by
  unfold packetType
  cases speed with
  | full =>
    rw [isWrapper_of_wLength_ne (by rw [h]; decide), isWrapper_of_wLength_ne (by rw [h]; decide), h]
    rfl
  | high =>
    rw [isWrapper_of_wLength_ne (by rw [h]; decide), isWrapper_of_wLength_ne (by rw [h]; decide), h]
    rfl

theorem filterPacket_command (h : isWrapper p 31 0x43 = true) :
    m.filterPacket charSigned p = m.filterCommand p := by
  unfold filterPacket
  rw [packetType_command h]

theorem filterPacket_exchange (charSigned : Bool) (m : MassStorage) (e : BulkExchange speed) :
    (m.filterPacket charSigned e.command).1 = (m.filterCommand e.command).1 := by
  rw [filterPacket_command e.isCommand]

theorem filterPacket_status (h : isWrapper p 13 0x53 = true) :
    m.filterPacket charSigned p = ({ m with state := .idle }, p) := by
  unfold filterPacket
  rw [packetType_status h]

/-- At full speed no data packet is long enough. -/
theorem filterPacket_full (h : p.wLength = BulkSpeed.full.maxPacketSize) :
    m.filterPacket charSigned p = (m, p) := by
  unfold filterPacket
  rw [packetType_data h]
  rfl

section High

variable (h : p.wLength = BulkSpeed.high.maxPacketSize)

include h

theorem filterPacket_write (hstate : m.state = .write) :
    m.filterPacket charSigned p = m.filterWrite charSigned p := by
  unfold filterPacket
  rw [packetType_data h, if_pos rfl, hstate]

theorem filterPacket_read (hstate : m.state = .read) :
    m.filterPacket charSigned p = m.filterRead p := by
  unfold filterPacket
  rw [packetType_data h, if_pos rfl, hstate]

theorem filterPacket_idle (hstate : m.state = .idle) : m.filterPacket charSigned p = (m, p) := by
  unfold filterPacket
  rw [packetType_data h, if_pos rfl, hstate]

end High

/-- What `get_packets` injects passes for a status wrapper, and has the tag that waited longest. -/
theorem getPackets_spec {next : MassStorage} (h : m.getPackets = some (p, next)) :
    isWrapper p 13 0x53 = true ∧ p.transmit = true ∧
      ∃ tag, m.pipe = tag :: next.pipe ∧ (p.data.getD []).drop 4 = tag ++ [0, 0, 0, 0, 0] := by
  unfold getPackets at h
  cases hpipe : m.pipe with
  | nil =>
    rw [hpipe] at h
    cases h
  | cons tag pipe =>
    rw [hpipe] at h
    cases h
    exact ⟨rfl, rfl, tag, rfl, rfl⟩

/-! ## The branches -/

theorem checkForPassword_eq (charSigned : Bool) (m : MassStorage) (data : List Byte) :
    m.checkForPassword charSigned data =
      { m with inbandBlockWrites := (m.checkForPassword charSigned data).inbandBlockWrites } := by
  unfold checkForPassword
  dsimp only
  split_ifs <;> rfl

/-- The cache after a packet of the data of a WRITE(10). -/
def writtenCache (m : MassStorage) (data : List Byte) : UInt32 → Option (List Byte) :=
  if m.cacheBlocks then (m.cacheWrite (m.blockOffset + m.baseAddress) data).blockCache
  else m.blockCache

theorem filterWrite_eq (charSigned : Bool) (m : MassStorage) (p : Packet) :
    ∃ inbandBlockWrites, m.filterWrite charSigned p =
      ({ m with
          inbandBlockWrites
          blockCache := m.writtenCache (p.data.getD [])
          blockOffset := if m.blockWrites then m.blockOffset + 1 else m.blockOffset
          pipe :=
            if m.blockWrites = true ∧ m.blockOffset + 1 = m.blockCount then m.pipe ++ [m.tag]
            else m.pipe },
        if m.blockWrites then { p with transmit := false } else p) := by
  have hcache :
      (if m.cacheBlocks then m.cacheWrite (m.blockOffset + m.baseAddress) (p.data.getD []) else m) =
        { m with blockCache := m.writtenCache (p.data.getD []) } := by
    unfold writtenCache
    split_ifs <;> rfl
  have hcheck (n : MassStorage) : ∃ inbandBlockWrites,
      (if n.inbandSignalling then n.checkForPassword charSigned (p.data.getD []) else n) =
        { n with inbandBlockWrites } := by
    split_ifs
    · exact ⟨_, checkForPassword_eq ..⟩
    · exact ⟨_, rfl⟩
  obtain ⟨inbandBlockWrites, hinband⟩ :=
    hcheck { m with blockCache := m.writtenCache (p.data.getD []) }
  refine ⟨inbandBlockWrites, ?_⟩
  unfold filterWrite
  dsimp only
  rw [hcache, hinband]
  dsimp only
  by_cases hblock : m.blockWrites = true
  · rw [if_pos hblock, if_pos hblock, if_pos hblock]
    by_cases hcount : m.blockOffset + 1 = m.blockCount
    · rw [if_pos hcount, if_pos (And.intro hblock hcount)]
      rfl
    · rw [if_neg hcount, if_neg fun h : _ ∧ _ => hcount h.2]
  · rw [if_neg hblock, if_neg hblock, if_neg hblock, if_neg fun h : _ ∧ _ => hblock h.1]

theorem filterRead_eq (m : MassStorage) (p : Packet) :
    m.filterRead p =
      ({ m with
          blockCache :=
            if m.cacheBlocks then
              (m.cacheRead (m.blockOffset + m.baseAddress) (p.data.getD [])).1.blockCache
            else m.blockCache
          blockOffset := m.blockOffset + 1 },
        if m.cacheBlocks then
          p.mapData fun _ => (m.cacheRead (m.blockOffset + m.baseAddress) (p.data.getD [])).2
        else p) := by
  unfold filterRead
  by_cases hcache : m.cacheBlocks = true
  · rw [if_pos hcache, if_pos hcache, if_pos hcache]
    unfold cacheRead
    cases m.blockCache (m.blockOffset + m.baseAddress) <;> rfl
  · rw [if_neg hcache, if_neg hcache, if_neg hcache]

theorem filterCommand_write (h : p.isWrite10 = true) :
    m.filterCommand p =
      ({ m with
          state := .write
          blockWrites := if m.inbandSignalling then m.inbandBlockWrites else m.blockWrites
          tag := p.commandTag
          blockCount := p.transferBlocks
          baseAddress := p.transferAddress
          blockOffset := 0 },
        if (if m.inbandSignalling then m.inbandBlockWrites else m.blockWrites) then
          { p with transmit := false }
        else p) := by
  have hop : p.byte 0x0f = 0x2a := beq_iff_eq.1 h
  unfold filterCommand
  rw [if_neg (by rw [hop]; decide), if_pos hop]
  rfl

theorem filterCommand_read (h : p.isRead10 = true) :
    m.filterCommand p =
      ({ m with
          state := .read
          blockCount := p.transferBlocks
          baseAddress := p.transferAddress
          blockOffset := 0 }, p) := by
  unfold filterCommand
  rw [if_pos (beq_iff_eq.1 h)]
  rfl

theorem filterCommand_other (hread : p.isRead10 = false) (hwrite : p.isWrite10 = false) :
    m.filterCommand p = (m, p) := by
  unfold filterCommand
  rw [if_neg (beq_eq_false_iff_ne.1 hread), if_neg (beq_eq_false_iff_ne.1 hwrite)]

end MassStorage

end UsbProxy
