import Mathlib.Data.List.GetD
import Mathlib.Data.Nat.Find
import UsbProxy.Descriptors
import UsbProxy.PacketFilter

/-!
# Setting a packet filter

`set_packet_filter` is given a header and a mask of eight bytes and stores neither; all it changes is
`packetHeaderMaskLength`, which becomes the index of the last masked byte.  So the tests go on with the
header and the mask the filter had, below that index.

1. `testPacket_setPacketFilter`, `testSetupPacket_setPacketFilter`: what the two tests compute then.
2. `setPacketFilter_never`: whatever the filter, the header and the mask, both tests accept a packet
   they should not.
3. `passes_new_iff`: for which packets the test of a new filter is right.
-/

namespace UsbProxy

/-! ## Masked comparisons -/

/-- The bytes agree with the header at every masked index below `n`. -/
def MaskedEq (header mask : List Byte) (n : ℕ) (data : ℕ → Byte) : Prop :=
  ∀ i < n, mask.getD i 0 ≠ 0 → mask.getD i 0 &&& data i = mask.getD i 0 &&& header.getD i 0

/-- The last masked index. -/
def lastMasked (mask : List Byte) : ℕ := Nat.findGreatest (fun i => mask.getD i 0 ≠ 0) 7

/-- A packet that contains every masked byte and agrees there. -/
def Packet.Passes (header mask : List Byte) (p : Packet) : Prop :=
  (∀ i < 8, mask.getD i 0 ≠ 0 → i < p.wLength.toNat) ∧ MaskedEq header mask 8 p.byte

section Masks

variable {header mask : List Byte} {p : Packet}

theorem lastMasked_lt (mask : List Byte) : lastMasked mask < 8 :=
  Nat.lt_succ_of_le (Nat.findGreatest_le 7)

theorem masked_lastMasked (h : ∃ i < 8, mask.getD i 0 ≠ 0) : mask.getD (lastMasked mask) 0 ≠ 0 := by
  obtain ⟨i, hi, hmask⟩ := h
  exact Nat.findGreatest_spec (P := fun i => mask.getD i 0 ≠ 0) (Nat.le_of_lt_succ hi) hmask

/-- A packet that passes has more bytes than the index of the last masked one. -/
theorem Packet.Passes.lt (h : ∃ i < 8, mask.getD i 0 ≠ 0) (hp : p.Passes header mask) :
    lastMasked mask < p.wLength.toNat :=
  hp.1 _ (lastMasked_lt mask) (masked_lastMasked h)

theorem and_not_ne_and {m : Byte} (h : m ≠ 0) (b : Byte) : m &&& ~~~b ≠ m &&& b := by
  intro heq
  refine h (UInt8.toBitVec_inj.1 (BitVec.eq_of_getElem_eq fun i hi => ?_))
  have hbit := congrArg (fun c : Byte => c.toBitVec[i]) heq
  simp only [UInt8.toBitVec_and, UInt8.toBitVec_not, BitVec.getElem_and, BitVec.getElem_not] at hbit
  cases hm : m.toBitVec[i] with
  | false => simp
  | true =>
    rw [hm] at hbit
    cases hb : b.toBitVec[i] <;> simp [hb] at hbit

theorem MaskedEq.last {data : ℕ → Byte} (h : ∃ i < 8, mask.getD i 0 ≠ 0)
    (hdata : MaskedEq header mask 8 data) :
    data (lastMasked mask) ≠ ~~~header.getD (lastMasked mask) 0 := by
  intro hflip
  have hlast := hdata _ (lastMasked_lt mask) (masked_lastMasked h)
  rw [hflip] at hlast
  exact and_not_ne_and (masked_lastMasked h) _ hlast

theorem maskedEq_self (header mask : List Byte) (n : ℕ) :
    MaskedEq header mask n fun i => header.getD i 0 := fun _ _ _ => rfl

end Masks

theorem CtrlRequest.bytes_ofBytes {buf : List Byte} (h : buf.length = 8) :
    (CtrlRequest.ofBytes buf).bytes = buf := by
  match buf, h with
  | [b0, b1, b2, b3, b4, b5, b6, b7], _ =>
    unfold CtrlRequest.bytes CtrlRequest.ofBytes
    simp only [leBytes_leWord]
    rfl

namespace PacketFilter

/-- The flag for a direction. -/
def enabled (f : PacketFilter) (directionOut : Bool) : Bool :=
  if directionOut then f.packetHeaderSetupOut else f.packetHeaderSetupIn

/-- A setup packet of an enabled direction that agrees at every masked byte. -/
def PassesSetup (f : PacketFilter) (header mask : List Byte) (s : SetupPacket)
    (directionOut : Bool) : Prop :=
  f.enabled directionOut = true ∧ MaskedEq header mask 8 fun i => s.ctrlReq.bytes.getD i 0

/-- The bytes agree with the header the filter has, under its own mask. -/
def Agrees (f : PacketFilter) (n : ℕ) (data : ℕ → Byte) : Prop :=
  MaskedEq f.packetHeader f.packetHeaderMask n data

variable {f : PacketFilter} {header mask : List Byte} {p : Packet}

/-! ## What the tests compute -/

theorem headerMatches_iff (f : PacketFilter) (data : ℕ → Byte) :
    f.headerMatches data = true ↔ f.Agrees f.packetHeaderMaskLength.toNat data := by
  unfold headerMatches Agrees MaskedEq
  simp only [List.all_eq_true, List.mem_range, Bool.not_eq_true', Bool.and_eq_false_iff,
    bne_eq_false_iff_eq]
  refine forall₂_congr fun i _ => ?_
  rw [or_iff_not_imp_left]

/-- The loop of `set_packet_filter` over the first bytes. -/
theorem foldl_maskLength (mask : List Byte) (n : ℕ) (h : ∃ i ≤ n, mask.getD i 0 ≠ 0) :
    (List.range (n + 1)).foldl (fun n i => if mask.getD i 0 ≠ 0 then UInt8.ofNat i else n) 1 =
      UInt8.ofNat (Nat.findGreatest (fun i => mask.getD i 0 ≠ 0) n) := by
  induction n with
  | zero =>
    obtain ⟨i, hi, hmask⟩ := h
    obtain rfl := Nat.le_zero.1 hi
    exact if_pos hmask
  | succ n ih =>
    rw [List.range_succ, List.foldl_append, List.foldl_cons, List.foldl_nil]
    by_cases hmask : mask.getD (n + 1) 0 ≠ 0
    · rw [if_pos hmask, Nat.findGreatest_eq hmask]
    · rw [if_neg hmask, Nat.findGreatest_of_not hmask]
      obtain ⟨i, hi, hi0⟩ := h
      refine ih ⟨i, ?_, hi0⟩
      rcases Nat.le_succ_iff.1 hi with hi | rfl
      · exact hi
      · exact absurd hi0 hmask

/-- The mask length is one less than the number of bytes to look at. -/
theorem maskLength_setPacketFilter (f : PacketFilter) (header : List Byte)
    (h : ∃ i < 8, mask.getD i 0 ≠ 0) :
    (f.setPacketFilter header mask).packetHeaderMaskLength.toNat = lastMasked mask := by
  obtain ⟨i, hi, hmask⟩ := h
  have hlast := lastMasked_lt mask
  refine (congrArg UInt8.toNat (foldl_maskLength mask 7 ⟨i, Nat.le_of_lt_succ hi, hmask⟩)).trans ?_
  exact UInt8.toNat_ofNat_of_lt' (Nat.lt_trans hlast (by decide))

theorem headerMatches_setPacketFilter (h : ∃ i < 8, mask.getD i 0 ≠ 0) (data : ℕ → Byte) :
    (f.setPacketFilter header mask).headerMatches data = true ↔
      f.Agrees (lastMasked mask) data := by
  rw [headerMatches_iff, maskLength_setPacketFilter f header h]
  rfl

theorem testPacket_setPacketFilter (h : ∃ i < 8, mask.getD i 0 ≠ 0) (p : Packet) :
    (f.setPacketFilter header mask).testPacket p = true ↔
      lastMasked mask ≤ p.wLength.toNat ∧ f.Agrees (lastMasked mask) p.byte := by
  unfold testPacket
  rw [maskLength_setPacketFilter f header h]
  by_cases hlt : p.wLength.toNat < lastMasked mask
  · rw [if_pos hlt]
    exact iff_of_false Bool.false_ne_true fun h => Nat.not_lt.2 h.1 hlt
  · rw [if_neg hlt, headerMatches_setPacketFilter h, and_iff_right (Nat.le_of_not_lt hlt)]

/-- The guard on the direction never rejects: in either direction one of its halves is true. -/
theorem testSetupPacket_eq (f : PacketFilter) (s : SetupPacket) (directionOut : Bool) :
    f.testSetupPacket s directionOut = f.headerMatches fun i => s.ctrlReq.bytes.getD i 0 := by
  unfold testSetupPacket
  cases directionOut <;> simp

theorem testSetupPacket_setPacketFilter (h : ∃ i < 8, mask.getD i 0 ≠ 0) (s : SetupPacket)
    (directionOut : Bool) :
    (f.setPacketFilter header mask).testSetupPacket s directionOut = true ↔
      f.Agrees (lastMasked mask) fun i => s.ctrlReq.bytes.getD i 0 := by
  rw [testSetupPacket_eq, headerMatches_setPacketFilter h]

/-! ## Which packets pass wrongly -/

/-- The packet with the former header for its bytes, too short by one, passes in its place. -/
theorem exists_testPacket (f : PacketFilter) (header : List Byte)
    (h : ∃ i < 8, mask.getD i 0 ≠ 0) :
    ∃ p : Packet, (f.setPacketFilter header mask).testPacket p = true ∧
      ¬ p.Passes header mask := by
  have hlast := lastMasked_lt mask
  have hlen : (UInt16.ofNat (lastMasked mask)).toNat = lastMasked mask :=
    UInt16.toNat_ofNat_of_lt' (Nat.lt_trans hlast (by decide))
  refine ⟨.new 0 (some f.packetHeader) (UInt16.ofNat (lastMasked mask)), ?_, fun hp => ?_⟩
  · exact (testPacket_setPacketFilter h _).2 ⟨Nat.le_of_eq hlen.symm, maskedEq_self _ _ _⟩
  · exact Nat.lt_irrefl _ (hlen ▸ hp.lt h)

/-- So does the setup packet that begins with the former header and has the complement of the new one
at the last masked byte, which is not looked at. -/
theorem exists_testSetupPacket (f : PacketFilter) (header : List Byte)
    (h : ∃ i < 8, mask.getD i 0 ≠ 0) (directionOut : Bool) :
    ∃ s : SetupPacket, (f.setPacketFilter header mask).testSetupPacket s directionOut = true ∧
      ¬ f.PassesSetup header mask s directionOut := by
  have hlast := lastMasked_lt mask
  let data : ℕ → Byte := fun i =>
    if i = lastMasked mask then ~~~header.getD i 0 else f.packetHeader.getD i 0
  have hbytes : ∀ i < 8, (CtrlRequest.ofBytes ((List.range 8).map data)).bytes.getD i 0 = data i := by
    intro i hi
    rw [CtrlRequest.bytes_ofBytes (by simp), List.getD_eq_getElem?_getD, List.getElem?_map,
      List.getElem?_range hi]
    rfl
  refine ⟨.new (.ofBytes ((List.range 8).map data)) none, ?_, fun hp => ?_⟩
  · refine (testSetupPacket_setPacketFilter h _ _).2 fun i hi _ => ?_
    have hdata : data i = f.packetHeader.getD i 0 := if_neg (Nat.ne_of_lt hi)
    exact congrArg (f.packetHeaderMask.getD i 0 &&& ·)
      ((hbytes i (Nat.lt_trans hi hlast)).trans hdata)
  · exact MaskedEq.last h hp.2 ((hbytes _ hlast).trans (if_pos rfl))

/-- **Setting a filter.**  Whatever header and mask a filter had and is given, `test_packet` is not
right for all packets afterwards, nor is `test_setup_packet` for all setup packets of a direction. -/
theorem setPacketFilter_never (f : PacketFilter) (header mask : List Byte)
    (h : ∃ i < 8, mask.getD i 0 ≠ 0) :
    (¬ ∀ p : Packet,
      (f.setPacketFilter header mask).testPacket p = true ↔ p.Passes header mask) ∧
    ∀ directionOut : Bool, ¬ ∀ s : SetupPacket,
      (f.setPacketFilter header mask).testSetupPacket s directionOut = true ↔
        f.PassesSetup header mask s directionOut := by
  constructor
  · intro hall
    obtain ⟨p, htest, hno⟩ := exists_testPacket f header h
    exact hno ((hall p).1 htest)
  · intro directionOut hall
    obtain ⟨s, htest, hno⟩ := exists_testSetupPacket f header h directionOut
    exact hno ((hall s).1 htest)

/-- A filter for the packets that begin with `0x12`. -/
def firstByte : List Byte × List Byte := ([0x12, 0, 0, 0, 0, 0, 0, 0], [0xff, 0, 0, 0, 0, 0, 0, 0])

/-- Not all packets are told apart by their first byte. -/
theorem setPacketFilter_never_firstByte :
    ¬ ∀ p : Packet, (new.setPacketFilter firstByte.1 firstByte.2).testPacket p = true ↔
      p.Passes firstByte.1 firstByte.2 :=
  (setPacketFilter_never new firstByte.1 firstByte.2 ⟨0, by decide, by decide⟩).1

/-- A packet of the byte `0x34` passes. -/
theorem passes_fails :
    ¬ ∀ (f : PacketFilter) (header mask : List Byte), (∃ i < 8, mask.getD i 0 ≠ 0) →
      (∀ p : Packet, (f.setPacketFilter header mask).testPacket p = true ↔ p.Passes header mask) ∧
      ∀ (s : SetupPacket) (directionOut : Bool),
        (f.setPacketFilter header mask).testSetupPacket s directionOut = true ↔
          f.PassesSetup header mask s directionOut := by
  intro h
  have hp := (h new firstByte.1 firstByte.2 ⟨0, by decide, by decide⟩).1 (.new 1 (some [0x34]) 1)
  exact absurd ((hp.1 (by decide)).2 0 (by decide) (by decide)) (by decide)

/-- Of a new filter the test only looks at the length of a packet. -/
theorem passes_new_iff (header : List Byte) (h : ∃ i < 8, mask.getD i 0 ≠ 0) (p : Packet) :
    ((new.setPacketFilter header mask).testPacket p = true ↔ p.Passes header mask) ↔
      p.wLength.toNat < lastMasked mask ∨ p.Passes header mask := by
  have hnew : new.Agrees (lastMasked mask) p.byte := by
    intro i hi hmask
    exact absurd (List.getD_replicate 0 (Nat.lt_trans hi (lastMasked_lt mask))) hmask
  rw [testPacket_setPacketFilter h, and_iff_left hnew]
  by_cases hlt : p.wLength.toNat < lastMasked mask
  · have hno : ¬ p.Passes header mask := fun hp => Nat.lt_asymm hlt (hp.lt h)
    exact iff_of_true (iff_of_false (Nat.not_le.2 hlt) hno) (.inl hlt)
  · rw [or_iff_right hlt, iff_true_left (Nat.le_of_not_lt hlt)]

end PacketFilter

end UsbProxy
