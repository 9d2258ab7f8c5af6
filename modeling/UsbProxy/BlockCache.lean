import Mathlib.Data.List.TakeDrop
import UsbProxy.BulkExchange
import UsbProxy.Library.Journals
import UsbProxy.Library.Runs

/-!
# The block cache

With `cache_blocks` on the mass storage plugin keeps every block that is written and the first
reading of every other one, and puts what it has into the data of later READ(10) commands.  It finds
the address of a packet from a base and an offset, which the data of a WRITE(10) moves on only while
writes are blocked.

1. `Caching.read`, `Caching.write`: what a packet of data does to the cache, at the address it has.
2. `Caching.readAll`, `Caching.writeAll`: a data stage, at successive addresses.
3. `coherent_of_along`: the sessions in which every READ(10) gets what the host wrote last.
-/

namespace UsbProxy

open Journals

/-- A READ(10) or WRITE(10) with its data in packets of one block. -/
structure BlockTransfer extends BulkExchange .high where
  isTransfer : command.isRead10 || command.isWrite10
  isBlocks : ∀ p ∈ data, p.data.map List.length = some BLOCK_SIZE

/-- What the packets of a data stage say about the blocks from an address on, with the data that was
left in each. -/
def blockAccesses (read : Bool) :
    UInt32 → List FilteredPacket → List (Access UInt32 (List Byte) × List Byte)
  | _, [] => []
  | a, f :: fs =>
    let sent := f.sent.data.getD []
    (if read then .read a sent else .write a sent, f.left.data.getD []) ::
      blockAccesses read (a + 1) fs

/-- The blocks that a command reads or writes. -/
def FilteredExchange.accesses (o : FilteredExchange .high) :
    List (Access UInt32 (List Byte) × List Byte) :=
  blockAccesses o.exchange.command.isRead10 o.exchange.command.transferAddress o.data

namespace MassStorage

variable (charSigned : Bool) {m : MassStorage} {p : Packet}
  {h : List (Access UInt32 (List Byte))}

/-- The command's data is found at the right addresses: a WRITE(10) of several blocks is blocked. -/
def Advances (m : MassStorage) (e : BulkExchange .high) : Prop :=
  e.command.isWrite10 = true → 1 < e.blocks →
    (if m.inbandSignalling then m.inbandBlockWrites else m.blockWrites) = true

/-- The cache has the values of a journal, and whole blocks. -/
structure Caching (m : MassStorage) (h : List (Access UInt32 (List Byte))) : Prop where
  cacheBlocks : m.cacheBlocks = true
  cache_eq : m.blockCache = value h
  blocks : ∀ a b, m.blockCache a = some b → b.length = BLOCK_SIZE

/-! ## One packet -/

theorem next_address {offset base a : UInt32} (h : offset + base = a) : offset + 1 + base = a + 1 := by
  rw [UInt32.add_assoc, UInt32.add_comm 1, ← UInt32.add_assoc, h]

theorem cacheWrite_eq {address : UInt32} {data : List Byte} (hlen : data.length = BLOCK_SIZE) :
    (m.cacheWrite address data).blockCache = Function.update m.blockCache address (some data) := by
  funext a
  unfold cacheWrite
  dsimp only
  rw [Function.update_apply, List.takeD_eq_take _ (Nat.le_of_eq hlen.symm),
    List.take_of_length_le (Nat.le_of_eq hlen)]

theorem memcpy_eq {dst src : List Byte} (hdst : dst.length = BLOCK_SIZE)
    (hsrc : src.length = BLOCK_SIZE) : memcpy dst src BLOCK_SIZE = src := by
  unfold memcpy
  rw [hdst, hsrc, Nat.min_self, List.drop_of_length_le (Nat.le_of_eq hdst), List.append_nil,
    List.take_of_length_le (Nat.le_of_eq hsrc), List.take_of_length_le (Nat.le_of_eq hsrc)]

theorem length_update {c : UInt32 → Option (List Byte)} {a : UInt32} {block : List Byte}
    (hc : ∀ a b, c a = some b → b.length = BLOCK_SIZE) (hblock : block.length = BLOCK_SIZE) :
    ∀ a' b, Function.update c a (some block) a' = some b → b.length = BLOCK_SIZE := by
  intro a' b hb
  by_cases ha : a' = a
  · rw [ha, Function.update_self, Option.some.injEq] at hb
    rw [← hb, hblock]
  · rw [Function.update_of_ne ha] at hb
    exact hc a' b hb

theorem Caching.write {data : List Byte} (hm : m.Caching h) (hstate : m.state = .write)
    (hp : p.wLength = BulkSpeed.high.maxPacketSize) (hdata : p.data = some data)
    (hlen : data.length = BLOCK_SIZE) :
    (m.filterPacket charSigned p).1.Caching (h ++ [.write (m.blockOffset + m.baseAddress) data]) ∧
      (m.filterPacket charSigned p).1.state = .write ∧
      (m.filterPacket charSigned p).1.blockWrites = m.blockWrites ∧
      (m.filterPacket charSigned p).1.baseAddress = m.baseAddress ∧
      (m.filterPacket charSigned p).1.blockOffset =
        if m.blockWrites then m.blockOffset + 1 else m.blockOffset := by
  obtain ⟨inbandBlockWrites, heq⟩ := filterWrite_eq charSigned m p
  have hcache : m.writtenCache (p.data.getD []) =
      Function.update m.blockCache (m.blockOffset + m.baseAddress) (some data) := by
    unfold writtenCache
    rw [if_pos hm.cacheBlocks, hdata]
    exact cacheWrite_eq hlen
  rw [filterPacket_write hp hstate, heq]
  refine ⟨⟨hm.cacheBlocks, ?_, ?_⟩, hstate, rfl, rfl, rfl⟩
  · rw [value_write, ← hm.cache_eq]
    exact hcache
  · dsimp only
    rw [hcache]
    exact length_update hm.blocks hlen

theorem Caching.read {data : List Byte} (hm : m.Caching h) (hstate : m.state = .read)
    (hp : p.wLength = BulkSpeed.high.maxPacketSize) (hdata : p.data = some data)
    (hlen : data.length = BLOCK_SIZE) :
    (m.filterPacket charSigned p).2.data =
        some ((value h (m.blockOffset + m.baseAddress)).getD data) ∧
      (m.filterPacket charSigned p).1.Caching (h ++ [.read (m.blockOffset + m.baseAddress) data]) ∧
      (m.filterPacket charSigned p).1.state = .read ∧
      (m.filterPacket charSigned p).1.baseAddress = m.baseAddress ∧
      (m.filterPacket charSigned p).1.blockOffset = m.blockOffset + 1 := by
  have hread : m.cacheRead (m.blockOffset + m.baseAddress) data =
      ({ m with
        blockCache := Function.update m.blockCache (m.blockOffset + m.baseAddress)
          (some ((value h (m.blockOffset + m.baseAddress)).getD data)) },
        (value h (m.blockOffset + m.baseAddress)).getD data) := by
    unfold cacheRead
    rw [← hm.cache_eq]
    cases hfind : m.blockCache (m.blockOffset + m.baseAddress) with
    | none =>
      rw [Option.getD_none, ← cacheWrite_eq hlen]
      rfl
    | some block =>
      show (m, memcpy data block BLOCK_SIZE) = _
      rw [memcpy_eq hlen (hm.blocks _ _ hfind), Option.getD_some, ← hfind, Function.update_eq_self]
  have hleft : ((value h (m.blockOffset + m.baseAddress)).getD data).length = BLOCK_SIZE := by
    rw [← hm.cache_eq]
    cases hfind : m.blockCache (m.blockOffset + m.baseAddress) with
    | none => exact hlen
    | some block => exact hm.blocks _ _ hfind
  rw [filterPacket_read hp hstate, filterRead_eq, if_pos hm.cacheBlocks, if_pos hm.cacheBlocks, hdata,
    Option.getD_some, hread]
  refine ⟨?_, ⟨hm.cacheBlocks, ?_, ?_⟩, hstate, rfl, rfl⟩
  · unfold Packet.mapData
    rw [hdata]
    rfl
  · rw [value_read, ← hm.cache_eq]
  · exact length_update hm.blocks hleft

/-! ## A data stage -/

theorem Caching.readAll (hm : m.Caching h) (hstate : m.state = .read) (ps : List Packet)
    (hps : ∀ p ∈ ps, p.wLength = BulkSpeed.high.maxPacketSize)
    (hblocks : ∀ p ∈ ps, p.data.map List.length = some BLOCK_SIZE) (a : UInt32)
    (ha : m.blockOffset + m.baseAddress = a) :
    Coherent h (blockAccesses true a (m.filterAll charSigned ps).1) ∧
      (m.filterAll charSigned ps).2.Caching
        (h ++ (blockAccesses true a (m.filterAll charSigned ps).1).map Prod.fst) := by
  induction ps generalizing m h a with
  | nil =>
    refine ⟨trivial, ?_⟩
    unfold filterAll blockAccesses
    rw [List.map_nil, List.append_nil]
    exact hm
  | cons p ps ih =>
    rw [List.forall_mem_cons] at hps hblocks
    obtain ⟨data, hdata, hlen⟩ := Option.map_eq_some_iff.1 hblocks.1
    obtain ⟨hleft, hnext, hstate', hbase, hoffset⟩ := hm.read charSigned hstate hps.1 hdata hlen
    rw [ha] at hleft hnext
    have hnext_address : (m.filterPacket charSigned p).1.blockOffset +
        (m.filterPacket charSigned p).1.baseAddress = a + 1 := by
      rw [hbase, hoffset, next_address ha]
    obtain ⟨hrest, hafter⟩ := ih hnext hstate' hps.2 hblocks.2 (a + 1) hnext_address
    unfold filterAll blockAccesses
    dsimp only
    rw [if_pos rfl, hdata, hleft, Option.getD_some, Option.getD_some]
    refine ⟨coherent_read.2 ⟨rfl, hrest⟩, ?_⟩
    rw [List.map_cons, List.append_cons]
    exact hafter

theorem Caching.writeAll (hm : m.Caching h) (hstate : m.state = .write) (ps : List Packet)
    (hps : ∀ p ∈ ps, p.wLength = BulkSpeed.high.maxPacketSize)
    (hblocks : ∀ p ∈ ps, p.data.map List.length = some BLOCK_SIZE)
    (hmoves : m.blockWrites = true ∨ ps.length ≤ 1) (a : UInt32)
    (ha : m.blockOffset + m.baseAddress = a) :
    Coherent h (blockAccesses false a (m.filterAll charSigned ps).1) ∧
      (m.filterAll charSigned ps).2.Caching
        (h ++ (blockAccesses false a (m.filterAll charSigned ps).1).map Prod.fst) := by
  induction ps generalizing m h a with
  | nil =>
    refine ⟨trivial, ?_⟩
    unfold filterAll blockAccesses
    rw [List.map_nil, List.append_nil]
    exact hm
  | cons p ps ih =>
    rw [List.forall_mem_cons] at hps hblocks
    obtain ⟨data, hdata, hlen⟩ := Option.map_eq_some_iff.1 hblocks.1
    obtain ⟨hnext, hstate', hflag, hbase, hoffset⟩ := hm.write charSigned hstate hps.1 hdata hlen
    rw [ha] at hnext
    unfold filterAll blockAccesses
    dsimp only
    rw [if_neg Bool.false_ne_true, hdata, Option.getD_some, List.map_cons, List.append_cons, Coherent]
    obtain hblock | hone := hmoves
    · rw [if_pos hblock] at hoffset
      refine ih hnext hstate' hps.2 hblocks.2 (.inl (hflag.trans hblock)) (a + 1) ?_
      rw [hbase, hoffset, next_address ha]
    · obtain rfl : ps = [] :=
        List.eq_nil_of_length_eq_zero (Nat.le_zero.1 (Nat.le_of_succ_le_succ hone))
      refine ⟨trivial, ?_⟩
      unfold filterAll blockAccesses
      rw [List.map_nil, List.append_nil]
      exact hnext

/-! ## A session -/

theorem Caching.command (hm : m.Caching h) (p : Packet) : (m.filterCommand p).1.Caching h := by
  cases hwrite : p.isWrite10 with
  | true =>
    rw [filterCommand_write hwrite]
    exact ⟨hm.cacheBlocks, hm.cache_eq, hm.blocks⟩
  | false =>
    cases hread : p.isRead10 with
    | true =>
      rw [filterCommand_read hread]
      exact ⟨hm.cacheBlocks, hm.cache_eq, hm.blocks⟩
    | false =>
      rw [filterCommand_other hread hwrite]
      exact hm

theorem Caching.statusAll (hm : m.Caching h) (ps : List Packet)
    (hps : ∀ p ∈ ps, isWrapper p 13 0x53 = true) : (m.filterAll charSigned ps).2.Caching h := by
  induction ps generalizing m with
  | nil => exact hm
  | cons p ps ih =>
    rw [List.forall_mem_cons] at hps
    refine ih (m := (m.filterPacket charSigned p).1) ?_ hps.2
    rw [filterPacket_status hps.1]
    exact ⟨hm.cacheBlocks, hm.cache_eq, hm.blocks⟩

theorem Caching.step (hm : m.Caching h) (e : BlockTransfer) (hmoves : m.Advances e.toBulkExchange) :
    Coherent h (m.observe charSigned e.toBulkExchange).accesses ∧
      (m.filterExchange charSigned e.toBulkExchange).2.Caching
        (h ++ (m.observe charSigned e.toBulkExchange).accesses.map Prod.fst) := by
  have hcommand := filterPacket_exchange charSigned m e.toBulkExchange
  have hdata :
      Coherent h (m.observe charSigned e.toBulkExchange).accesses ∧
        ((m.filterPacket charSigned e.command).1.filterAll charSigned e.data).2.Caching
          (h ++ (m.observe charSigned e.toBulkExchange).accesses.map Prod.fst) := by
    have hnext := hm.command e.command
    rw [← hcommand] at hnext
    have hseen : (m.observe charSigned e.toBulkExchange).accesses =
        blockAccesses e.command.isRead10 e.command.transferAddress
          ((m.filterPacket charSigned e.command).1.filterAll charSigned e.data).1 := rfl
    rw [hseen]
    cases hread : e.command.isRead10 with
    | true =>
      rw [filterCommand_read hread] at hcommand
      rw [hcommand] at hnext ⊢
      exact hnext.readAll charSigned rfl e.data e.isData e.isBlocks _ (UInt32.zero_add _)
    | false =>
      have hwrite : e.command.isWrite10 = true := by
        have := e.isTransfer
        rwa [hread, Bool.false_or] at this
      rw [filterCommand_write hwrite] at hcommand
      rw [hcommand] at hnext ⊢
      refine hnext.writeAll charSigned rfl e.data e.isData e.isBlocks ?_ _ (UInt32.zero_add _)
      have hlen : e.data.length = e.blocks := Nat.eq_of_mul_eq_mul_right (by decide) e.isWhole
      by_cases hmany : 1 < e.blocks
      · exact .inl (hmoves hwrite hmany)
      · exact .inr (by rw [hlen]; exact Nat.not_lt.1 hmany)
  exact ⟨hdata.1, hdata.2.statusAll charSigned e.status e.isStatus⟩

theorem Caching.session (hm : m.Caching h) (es : List BlockTransfer)
    (hmoves : Runs.Along (MassStorage.step charSigned) Advances m
      (es.map BlockTransfer.toBulkExchange)) :
    Coherent h ((Runs.outputs (MassStorage.step charSigned) (observe charSigned) m
      (es.map BlockTransfer.toBulkExchange)).flatMap FilteredExchange.accesses) := by
  induction es generalizing m h with
  | nil => trivial
  | cons e es ih =>
    obtain ⟨hcoherent, hnext⟩ := hm.step charSigned e hmoves.head
    exact coherent_append.2 ⟨hcoherent, ih hnext (hmoves.tail rfl)⟩

/-- **The block cache.**  In every session in which writes are blocked whenever several blocks are
written at once, a READ(10) gets what the host wrote last, or else what was read first. -/
theorem coherent_of_along (blockWrites inbandSignalling : Bool)
    (unblockPassword blockPassword tag : List Byte) (blockOffset baseAddress : UInt32)
    (es : List BlockTransfer)
    (hmoves : Runs.Along (MassStorage.step charSigned) Advances
      (new blockWrites true inbandSignalling unblockPassword blockPassword tag blockOffset baseAddress)
      (es.map BlockTransfer.toBulkExchange)) :
    Coherent [] ((Runs.outputs (MassStorage.step charSigned) (observe charSigned)
      (new blockWrites true inbandSignalling unblockPassword blockPassword tag blockOffset baseAddress)
      (es.map BlockTransfer.toBulkExchange)).flatMap FilteredExchange.accesses) :=
  Caching.session charSigned ⟨rfl, rfl, fun _ _ h => by cases h⟩ es hmoves

/-- A packet with one block. -/
def blockPacket (endpoint v : Byte) : Packet :=
  Packet.new endpoint (some (List.replicate BLOCK_SIZE v)) 512

theorem blockPacket_isBlock {endpoint : Byte} {vs : List Byte} :
    ∀ p ∈ vs.map (blockPacket endpoint), p.data.map List.length = some BLOCK_SIZE := by
  intro p hp
  obtain ⟨v, -, rfl⟩ := List.mem_map.1 hp
  exact congrArg some List.length_replicate

theorem blockPacket_isData {endpoint : Byte} {vs : List Byte} :
    ∀ p ∈ vs.map (blockPacket endpoint), p.wLength = BulkSpeed.high.maxPacketSize := by
  intro p hp
  obtain ⟨v, -, rfl⟩ := List.mem_map.1 hp
  rfl

/-- Two blocks are written from block 10 on. -/
def writeTwoBlocks : BlockTransfer where
  command := Packet.command10 0x2a 10 2
  blocks := 2
  data := [0xaa, 0xbb].map (blockPacket 0x02)
  status := []
  isCommand := by decide
  isData := blockPacket_isData
  isWhole := rfl
  isCounted := fun _ => by decide
  isStatus := isWrapper_of_mem_nil
  isTransfer := by decide
  isBlocks := blockPacket_isBlock

/-- Block 10 is read. -/
def readOneBlock : BlockTransfer where
  command := Packet.command10 0x28 10 1
  blocks := 1
  data := [0xaa].map (blockPacket 0x81)
  status := []
  isCommand := by decide
  isData := blockPacket_isData
  isWhole := rfl
  isCounted := fun _ => by decide
  isStatus := isWrapper_of_mem_nil
  isTransfer := by decide
  isBlocks := blockPacket_isBlock

/-- With writes blocked. -/
theorem coherent_of_along_blocked :
    Coherent [] ((Runs.outputs (MassStorage.step false) (observe false)
      (new true true false [] [] [] 0 0)
      ([writeTwoBlocks, readOneBlock].map BlockTransfer.toBulkExchange)).flatMap
        FilteredExchange.accesses) :=
  coherent_of_along false true false [] [] [] 0 0 [writeTwoBlocks, readOneBlock]
    ⟨fun _ _ => rfl, fun _ _ => ⟨fun h => absurd h (by decide), fun _ _ => trivial⟩⟩

/-- Without: block 10 comes back as block 11. -/
theorem coherent_fails :
    ¬ Coherent [] ((Runs.outputs (MassStorage.step false) (observe false)
      (new false true false [] [] [] 0 0)
      ([writeTwoBlocks, readOneBlock].map BlockTransfer.toBulkExchange)).flatMap
        FilteredExchange.accesses) := by
  decide +kernel

end MassStorage

end UsbProxy
