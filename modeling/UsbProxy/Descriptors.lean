import Mathlib.Data.List.TakeDrop
import UsbProxy.Library.Records
import UsbProxy.Packet

/-!
# USB descriptors

The packed structures of `ch9.h` the object model keeps, with their bytes in memory, and the result
type of the validators (`DefinitionErrors.h`).
-/

namespace UsbProxy

open Records

theorem leWord_leBytes (w : UInt16) :
    leWord (UInt8.ofNat (w.toNat % 256)) (UInt8.ofNat (w.toNat / 256)) = w := by
  have hw := w.toNat_lt
  unfold leWord
  rw [UInt8.toNat_ofNat_of_lt' (show w.toNat / 256 < 256 by omega),
    UInt8.toNat_ofNat_of_lt' (show w.toNat % 256 < 256 by omega),
    show w.toNat / 256 * 256 + w.toNat % 256 = w.toNat by omega, UInt16.ofNat_toNat]

theorem leBytes_leWord (lo hi : Byte) : leBytes (leWord lo hi) = [lo, hi] := by
  have hlo := lo.toNat_lt
  have hhi := hi.toNat_lt
  unfold leBytes leWord
  rw [UInt16.toNat_ofNat_of_lt' (show hi.toNat * 256 + lo.toNat < 65536 by omega),
    show (hi.toNat * 256 + lo.toNat) % 256 = lo.toNat by omega,
    show (hi.toNat * 256 + lo.toNat) / 256 = hi.toNat by omega, UInt8.ofNat_toNat, UInt8.ofNat_toNat]

/-- `memcpy` of `n` bytes from a structure; what lies behind the structure reads as zero. -/
def fromStruct (bytes : List Byte) (n : Byte) : List Byte := bytes.takeD n.toNat 0

/-- `total += f(x)` over the objects. -/
def total {α : Type*} (f : α → ℕ) : List α → ℕ
  | [] => 0
  | x :: xs => f x + total f xs

theorem total_append {α : Type*} (f : α → ℕ) (xs ys : List α) :
    total f (xs ++ ys) = total f xs + total f ys := by
  induction xs with
  | nil => exact (Nat.zero_add _).symm
  | cons x xs ih => rw [List.cons_append, total, total, ih, Nat.add_assoc]

theorem total_congr {α : Type*} {f g : α → ℕ} {xs : List α} (h : ∀ x ∈ xs, f x = g x) :
    total f xs = total g xs := by
  induction xs with
  | nil => rfl
  | cons x xs ih =>
    obtain ⟨hx, hxs⟩ := List.forall_mem_cons.1 h
    rw [total, total, hx, ih hxs]

theorem length_flatMap {α : Type*} {f : α → List Byte} {g : α → ℕ} (h : ∀ x, (f x).length = g x)
    (xs : List α) : (xs.flatMap f).length = total g xs := by
  induction xs with
  | nil => rfl
  | cons x xs ih => rw [List.flatMap_cons, List.length_append, h, ih, total]

theorem reduceOption_map_some {α : Type*} (l : List α) : (l.map some).reduceOption = l := by
  show (l.map some).filterMap id = l
  rw [List.filterMap_map]
  exact List.filterMap_some

/-- What `memcpy` takes from a structure that begins with its own length. -/
def structRecord (b : Byte) (bs : List Byte) : Record where
  bytes := fromStruct (b :: bs) b
  length_eq := by
    unfold fromStruct
    rw [List.takeD_length]
    cases hn : b.toNat with
    | zero => rfl
    | succ n => exact hn.symm

def USB_DT_CONFIG : Byte := 2
def USB_DT_INTERFACE : Byte := 4
def USB_DT_ENDPOINT : Byte := 5
def USB_DT_OTHER_SPEED_CONFIG : Byte := 7
/-- The descriptor type of a HID class descriptor. -/
def USB_DT_HID : Byte := 0x21

/-! ## The structures -/

structure UsbConfigDescriptor where
  bLength : Byte
  bDescriptorType : Byte
  wTotalLength : UInt16
  bNumInterfaces : Byte
  bConfigurationValue : Byte
  iConfiguration : Byte
  bmAttributes : Byte
  bMaxPower : Byte
  deriving DecidableEq, Repr

namespace UsbConfigDescriptor

def bytes (d : UsbConfigDescriptor) : List Byte :=
  [d.bLength, d.bDescriptorType] ++ leBytes d.wTotalLength ++
    [d.bNumInterfaces, d.bConfigurationValue, d.iConfiguration, d.bmAttributes, d.bMaxPower]

def ofMemory (mem : Memory) (p : ℕ) : UsbConfigDescriptor :=
  { bLength := mem p, bDescriptorType := mem (p + 1), wTotalLength := leWord (mem (p + 2)) (mem (p + 3))
    bNumInterfaces := mem (p + 4), bConfigurationValue := mem (p + 5), iConfiguration := mem (p + 6)
    bmAttributes := mem (p + 7), bMaxPower := mem (p + 8) }

@[simp] theorem length_bytes (d : UsbConfigDescriptor) : d.bytes.length = 9 := rfl

theorem ofMemory_of_holds {mem : Memory} {p : ℕ} {d : UsbConfigDescriptor}
    (h : Holds mem p d.bytes) : ofMemory mem p = d := by
  have hb : ∀ i < 9, mem (p + i) = d.bytes.getD i 0 := fun i hi => h.getD (by simpa using hi)
  unfold ofMemory
  rw [show mem p = _ from hb 0 (by omega), hb 1 (by omega), hb 2 (by omega), hb 3 (by omega),
    hb 4 (by omega), hb 5 (by omega), hb 6 (by omega), hb 7 (by omega), hb 8 (by omega)]
  simp [bytes, leBytes, leWord_leBytes]

end UsbConfigDescriptor

structure UsbInterfaceDescriptor where
  bLength : Byte
  bDescriptorType : Byte
  bInterfaceNumber : Byte
  bAlternateSetting : Byte
  bNumEndpoints : Byte
  bInterfaceClass : Byte
  bInterfaceSubClass : Byte
  bInterfaceProtocol : Byte
  iInterface : Byte
  deriving DecidableEq, Repr

namespace UsbInterfaceDescriptor

def bytes (d : UsbInterfaceDescriptor) : List Byte :=
  [d.bLength, d.bDescriptorType, d.bInterfaceNumber, d.bAlternateSetting, d.bNumEndpoints,
    d.bInterfaceClass, d.bInterfaceSubClass, d.bInterfaceProtocol, d.iInterface]

/-- The structure after `memcpy(&descriptor, p, *p)`: the first `*p` bytes are copied, the others
keep the contents of the fresh object. -/
def ofMemory (mem uninit : Memory) (p : ℕ) : UsbInterfaceDescriptor :=
  let byte i := if i < (mem p).toNat then mem (p + i) else uninit i
  { bLength := byte 0, bDescriptorType := byte 1, bInterfaceNumber := byte 2
    bAlternateSetting := byte 3, bNumEndpoints := byte 4, bInterfaceClass := byte 5
    bInterfaceSubClass := byte 6, bInterfaceProtocol := byte 7, iInterface := byte 8 }

@[simp] theorem length_bytes (d : UsbInterfaceDescriptor) : d.bytes.length = 9 := rfl

theorem ofMemory_of_holds {mem : Memory} (uninit : Memory) {p : ℕ} {d : UsbInterfaceDescriptor}
    (h : Holds mem p d.bytes) (hd : d.bLength = 9) : ofMemory mem uninit p = d := by
  have hb : ∀ i < 9, mem (p + i) = d.bytes.getD i 0 := fun i hi => h.getD (by simpa using hi)
  have h0 : mem p = 9 := (hb 0 (by omega)).trans hd
  unfold ofMemory
  have h9 : (9 : Byte).toNat = 9 := rfl
  simp only [h0, h9, show (0 : ℕ) < 9 by omega, show (1 : ℕ) < 9 by omega, show (2 : ℕ) < 9 by omega,
    show (3 : ℕ) < 9 by omega, show (4 : ℕ) < 9 by omega, show (5 : ℕ) < 9 by omega,
    show (6 : ℕ) < 9 by omega, show (7 : ℕ) < 9 by omega, show (8 : ℕ) < 9 by omega, if_true]
  rw [hb 0 (by omega), hb 1 (by omega), hb 2 (by omega), hb 3 (by omega), hb 4 (by omega),
    hb 5 (by omega), hb 6 (by omega), hb 7 (by omega), hb 8 (by omega)]
  rfl

end UsbInterfaceDescriptor

/-- `usb_endpoint_descriptor`, the two audio fields of the kernel's structure included. -/
structure UsbEndpointDescriptor where
  bLength : Byte
  bDescriptorType : Byte
  bEndpointAddress : Byte
  bmAttributes : Byte
  wMaxPacketSize : UInt16
  bInterval : Byte
  bRefresh : Byte
  bSynchAddress : Byte
  deriving DecidableEq, Repr

namespace UsbEndpointDescriptor

/-- The seven bytes every endpoint descriptor has. -/
def wire (d : UsbEndpointDescriptor) : List Byte :=
  [d.bLength, d.bDescriptorType, d.bEndpointAddress, d.bmAttributes] ++ leBytes d.wMaxPacketSize ++
    [d.bInterval]

def bytes (d : UsbEndpointDescriptor) : List Byte := d.wire ++ [d.bRefresh, d.bSynchAddress]

/-- The structure after `memcpy(&descriptor, p, 7)`. -/
def ofMemory (mem uninit : Memory) (p : ℕ) : UsbEndpointDescriptor :=
  { bLength := mem p, bDescriptorType := mem (p + 1), bEndpointAddress := mem (p + 2)
    bmAttributes := mem (p + 3), wMaxPacketSize := leWord (mem (p + 4)) (mem (p + 5))
    bInterval := mem (p + 6), bRefresh := uninit 7, bSynchAddress := uninit 8 }

theorem fromStruct_wire {d : UsbEndpointDescriptor} (h : d.bLength = 7) :
    fromStruct d.bytes d.bLength = d.wire := by
  rw [h]
  rfl

theorem wire_ofMemory (mem uninit : Memory) (p : ℕ) :
    (ofMemory mem uninit p).wire = copy mem p 7 := by
  unfold ofMemory wire
  rw [leBytes_leWord]
  rfl

end UsbEndpointDescriptor

/-! ## Validator results -/

inductive DeObjType
  | none | device | config | string | interface | endpoint | qualifier | osConfig | interfaceGroup
  deriving DecidableEq, Repr

inductive DeError
  | none | invalidDescriptor | nullObject | missingLanguage | misplacedObject | misplacedIfNum
  deriving DecidableEq, Repr

structure DefinitionError where
  error : DeError := .none
  errorDetail : UInt16 := 0
  objectType : DeObjType := .none
  configId : Byte := 0
  interfaceNum : Byte := 0
  interfaceAlternate : Byte := 0
  endpointNum : Byte := 0
  deriving DecidableEq, Repr

namespace DefinitionError

/-- `if (rc.error) {return rc;}` before the rest. -/
def orElse (rc rest : DefinitionError) : DefinitionError := if rc.error = .none then rest else rc

/-- The same down a list, an empty result at the end. -/
def first : List DefinitionError → DefinitionError
  | [] => {}
  | rc :: rcs => rc.orElse (first rcs)

theorem orElse_ok {rc rest : DefinitionError} :
    (rc.orElse rest).error = .none ↔ rc.error = .none ∧ rest.error = .none := by
  unfold orElse
  split_ifs with h <;> simp [h]

/-- The loop over an array of owned objects: a null entry is an error, any other is checked. -/
def checkEach {α : Type*} (nullObject : ℕ → DefinitionError) (check : ℕ → α → DefinitionError)
    (objects : List (Option α)) : DefinitionError :=
  first (objects.mapIdx fun n object => object.elim (nullObject n) (check n))

theorem checkEach_ok {α : Type*} {nullObject : ℕ → DefinitionError}
    {check : ℕ → α → DefinitionError} (hnull : ∀ n, (nullObject n).error ≠ .none)
    {objects : List (Option α)} (h : (checkEach nullObject check objects).error = .none) :
    ∃ present : List α, objects = present.map some ∧
      ∀ n (hn : n < present.length), (check n present[n]).error = .none := by
  induction objects generalizing nullObject check with
  | nil => exact ⟨[], rfl, fun n hn => absurd hn (Nat.not_lt_zero n)⟩
  | cons object objects ih =>
    unfold checkEach at h
    rw [List.mapIdx_cons, first, orElse_ok] at h
    obtain ⟨hhead, htail⟩ := h
    cases object with
    | none => exact absurd hhead (hnull 0)
    | some a =>
      obtain ⟨present, rfl, hp⟩ := ih (fun n => hnull (n + 1)) htail
      refine ⟨a :: present, rfl, fun n hn => ?_⟩
      cases n with
      | zero => exact hhead
      | succ n => exact hp n (by simpa using hn)

end DefinitionError

end UsbProxy
