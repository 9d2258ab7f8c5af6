import Mathlib.Algebra.Group.Int.Defs
import Mathlib.Algebra.Group.Nat.Defs
import Mathlib.Data.Int.Notation
import Mathlib.Data.List.Basic

/-!
# Packets

`Packet` and `SetupPacket` of `Packet.h`, with `usb_ctrlrequest` of the kernel's `ch9.h`.  A data
pointer is the block it points to, `none` for a null pointer.
-/

namespace UsbProxy

abbrev Byte := UInt8

theorem one_le_of_ne_zero {v : Byte} (h : v ≠ 0) : 1 ≤ v := by
  have hlt : (0 : Byte).toNat < v.toNat := UInt8.lt_iff_toNat_lt.1 (UInt8.pos_iff_ne_zero.2 h)
  exact UInt8.le_iff_toNat_le.2 hlt

theorem one_le_toNat {v : Byte} (h : v ≠ 0) : 1 ≤ v.toNat :=
  UInt8.le_iff_toNat_le.1 (one_le_of_ne_zero h)

theorem toNat_ofNat_of_lt {n : Byte} {k : ℕ} (h : k < n.toNat) : (UInt8.ofNat k).toNat = k :=
  UInt8.toNat_ofNat_of_lt' (Nat.lt_trans h n.toNat_lt)

theorem takeD_of_length_le {α : Type*} {l : List α} {n : ℕ} (a : α) (h : l.length ≤ n) :
    l.takeD n a = l ++ List.replicate (n - l.length) a := by
  induction l generalizing n with
  | nil => exact List.takeD_nil n a
  | cons b l ih =>
    rw [List.length_cons] at h
    obtain ⟨n, rfl⟩ := Nat.exists_eq_add_of_le' (Nat.le_trans (Nat.le_add_left 1 _) h)
    rw [List.length_cons, Nat.add_sub_add_right]
    exact congrArg (b :: ·) (ih (Nat.le_of_succ_le_succ h))

/-- The two bytes of a little-endian 16-bit field. -/
def leBytes (w : UInt16) : List Byte := [UInt8.ofNat (w.toNat % 256), UInt8.ofNat (w.toNat / 256)]

/-- The 16-bit field two little-endian bytes hold. -/
def leWord (lo hi : Byte) : UInt16 := UInt16.ofNat (hi.toNat * 256 + lo.toNat)

/-- What an `int` holds of a number. -/
def asInt (z : ℤ) : ℤ := Int.bmod z (2 ^ 32)

theorem asInt_of_lt {z : ℤ} (h0 : 0 ≤ z) (h : z < 2 ^ 31) : asInt z = z := by
  rw [asInt, Int.bmod_eq_of_le] <;> omega

theorem asInt_neg {z : ℤ} (h0 : 2 ^ 31 ≤ z) (h : z < 2 ^ 32) : asInt z < 0 := by
  unfold asInt Int.bmod
  rw [Int.emod_eq_of_lt (by omega) (by omega)]
  simp only
  split_ifs <;> omega

theorem toNat_ofInt_of_lt {n : ℕ} (h : n < 2 ^ 16) : (UInt16.ofInt n).toNat = n := by
  have hmod : ((n : ℤ) % 2 ^ 16).toNat = n := by omega
  rw [UInt16.ofInt, hmod]
  exact UInt16.toNat_ofNat_of_lt' h

/-- The `int` a `char` is promoted to; whether `char` is signed is the platform's choice. -/
def charInt (charSigned : Bool) (c : Byte) : ℤ := if charSigned then c.toInt8.toInt else c.toNat

theorem charInt_signed (c : Byte) :
    charInt true c = if 2 * c.toNat < 256 then (c.toNat : ℤ) else (c.toNat : ℤ) - 256 :=
  BitVec.toInt_eq_toNat_cond c.toBitVec

/-- `usb_ctrlrequest`. -/
structure CtrlRequest where
  bRequestType : Byte
  bRequest : Byte
  wValue : UInt16
  wIndex : UInt16
  wLength : UInt16
  deriving DecidableEq, Repr

/-- The eight bytes of a setup packet in memory. -/
def CtrlRequest.bytes (r : CtrlRequest) : List Byte :=
  [r.bRequestType, r.bRequest] ++ leBytes r.wValue ++ leBytes r.wIndex ++ leBytes r.wLength

/-- The setup packet `memcpy` makes of eight bytes; bytes that are not there are not followed. -/
def CtrlRequest.ofBytes (buf : List Byte) : CtrlRequest where
  bRequestType := buf.getD 0 0
  bRequest := buf.getD 1 0
  wValue := leWord (buf.getD 2 0) (buf.getD 3 0)
  wIndex := leWord (buf.getD 4 0) (buf.getD 5 0)
  wLength := leWord (buf.getD 6 0) (buf.getD 7 0)

/-- `bRequestType & 0x80`: a device-to-host transfer. -/
def CtrlRequest.deviceToHost (r : CtrlRequest) : Bool := r.bRequestType &&& 0x80 != 0

structure Packet where
  bEndpoint : Byte
  wLength : UInt16
  filter : Bool
  transmit : Bool
  data : Option (List Byte)
  deriving DecidableEq, Repr

def Packet.new (endpoint : Byte) (data : Option (List Byte)) (length : UInt16)
    (filter : Bool := true) : Packet :=
  { bEndpoint := endpoint, wLength := length, filter, transmit := true, data }

namespace Packet

/-- `data[i]`.  A byte outside the block is not followed and reads as zero. -/
def byte (p : Packet) (i : ℕ) : Byte := (p.data.getD []).getD i 0

/-- The `wLength` bytes at `data`, what a plugin that reads the whole packet sees. -/
def payload (p : Packet) : List Byte := (p.data.getD []).takeD p.wLength.toNat 0

/-- Rewrite the block `data` points to. -/
def mapData (f : List Byte → List Byte) (p : Packet) : Packet := { p with data := p.data.map f }

/-- `data[i] = v`. -/
def setByte (p : Packet) (i : ℕ) (v : Byte) : Packet := p.mapData (·.set i v)

end Packet

structure SetupPacket extends Packet where
  ctrlReq : CtrlRequest
  source : ℤ
  filterOut : Bool
  transmitOut : Bool
  filterIn : Bool
  transmitIn : Bool
  deriving DecidableEq, Repr

def SetupPacket.new (ctrlReq : CtrlRequest) (data : Option (List Byte)) (filter : Bool := true) :
    SetupPacket :=
  { Packet.new 0 data 0 filter with
    ctrlReq, source := 0, filterOut := filter, transmitOut := true, filterIn := filter
    transmitIn := true }

end UsbProxy
