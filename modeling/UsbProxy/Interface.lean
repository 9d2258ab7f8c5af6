import UsbProxy.Descriptors

/-!
# Endpoints and interfaces

`Endpoint`, `HID`, `GenericDescriptor` and `Interface`: the objects one interface section of a
configuration descriptor is sorted into, their bytes (`get_full_descriptor`) and their validators
(`is_defined`).  Parent pointers only serve the string lookups and are left out.
-/

namespace UsbProxy

open Records

/-! ## Endpoints -/

structure Endpoint where
  descriptor : UsbEndpointDescriptor
  deriving DecidableEq, Repr

namespace Endpoint

/-- `Endpoint(Interface*, const __u8* p)`. -/
def ofMemory (mem uninit : Memory) (p : ℕ) : Endpoint := ⟨.ofMemory mem uninit p⟩

def getFullDescriptorLength (ep : Endpoint) : ℕ := ep.descriptor.bLength.toNat

def getFullDescriptor (ep : Endpoint) : List Byte :=
  fromStruct ep.descriptor.bytes ep.descriptor.bLength

def isDefined (ep : Endpoint) (configId interfaceNum interfaceAlternate : Byte) : DefinitionError :=
  let d := ep.descriptor
  let invalid detail : DefinitionError :=
    ⟨.invalidDescriptor, detail, .endpoint, configId, interfaceNum, interfaceAlternate,
      d.bEndpointAddress⟩
  if d.bLength ≠ 7 then invalid 0x01
  else if d.bDescriptorType ≠ USB_DT_ENDPOINT then invalid 0x02
  else if d.bEndpointAddress &&& 0x70 ≠ 0 then invalid 0x03
  else if d.bmAttributes &&& 0xC0 ≠ 0 ∨
      d.bmAttributes &&& 0x03 ≠ 1 ∧ d.bmAttributes &&& 0xFC ≠ 0 then invalid 0x04
  else if d.bmAttributes &&& 0x03 = 1 ∧ d.bInterval ≠ 1 ∨
      d.bmAttributes &&& 0x03 = 3 ∧ d.bInterval = 1 then invalid 0x05
  else {}

/-- The bytes of `get_full_descriptor`, a record. -/
def record (ep : Endpoint) : Record := structRecord ep.descriptor.bLength ep.descriptor.bytes.tail

variable {ep : Endpoint}

@[simp] theorem bytes_record (ep : Endpoint) : ep.record.bytes = ep.getFullDescriptor := rfl

theorem length_getFullDescriptor (ep : Endpoint) :
    ep.getFullDescriptor.length = ep.getFullDescriptorLength :=
  List.takeD_length ..

theorem getFullDescriptor_of_seven (h : ep.descriptor.bLength = 7) :
    ep.getFullDescriptor = ep.descriptor.wire :=
  UsbEndpointDescriptor.fromStruct_wire h

theorem isDefined_ok {configId interfaceNum interfaceAlternate : Byte}
    (h : (ep.isDefined configId interfaceNum interfaceAlternate).error = .none) :
    ep.descriptor.bLength = 7 ∧ ep.descriptor.bDescriptorType = USB_DT_ENDPOINT := by
  unfold isDefined at h
  by_cases hl : ep.descriptor.bLength ≠ 7
  · simp [hl] at h
  by_cases ht : ep.descriptor.bDescriptorType ≠ USB_DT_ENDPOINT
  · simp [hl, ht] at h
  exact ⟨not_not.1 hl, not_not.1 ht⟩

end Endpoint

/-! ## HID and other descriptors -/

/-- `HID` holds a `malloc`ed copy of its descriptor. -/
abbrev HID := Record

/-- A `GenericDescriptor`, a `malloc`ed copy too. -/
abbrev GenericDescriptor := Record

/-- `generic_descriptors` with `generic_descriptor_count`: the array is as long as its counter. -/
structure GenericDescriptors where
  entries : List GenericDescriptor
  count : Byte
  length_eq : entries.length = count.toNat

namespace GenericDescriptors

def none : GenericDescriptors := ⟨[], 0, rfl⟩

/-- `generic_descriptor_count++`, the `realloc` to the new count and the store at `count - 1`.  With
255 entries the counter wraps, `realloc(.., 0)` frees the block and gives a null pointer, and the store
in front of that is a crash. -/
def add (g : GenericDescriptors) (d : GenericDescriptor) : Option GenericDescriptors :=
  if h : g.count + 1 = 0 then Option.none
  else some
    { entries := g.entries ++ [d]
      count := g.count + 1
      length_eq := by
        have hlt := g.count.toNat_lt
        have hlen := g.length_eq
        have hne : (g.count + 1).toNat ≠ 0 := fun h0 => h (UInt8.toNat_inj.1 h0)
        rw [UInt8.toNat_add] at hne ⊢
        have h1 : (1 : Byte).toNat = 1 := rfl
        rw [List.length_append, hlen, List.length_singleton]
        omega }

variable {g : GenericDescriptors}

@[simp] theorem entries_none : none.entries = [] := rfl

theorem length_le (g : GenericDescriptors) : g.entries.length ≤ 255 := by
  have := g.count.toNat_lt
  rw [g.length_eq]
  omega

theorem add_of_lt (d : GenericDescriptor) (h : g.entries.length < 255) :
    ∃ g', g.add d = some g' ∧ g'.entries = g.entries ++ [d] := by
  have hne : g.count + 1 ≠ 0 := by
    intro h0
    have := congrArg UInt8.toNat h0
    rw [UInt8.toNat_add, ← g.length_eq] at this
    have h1 : (1 : Byte).toNat = 1 := rfl
    have h2 : (0 : Byte).toNat = 0 := rfl
    omega
  exact ⟨_, dif_neg hne, rfl⟩

end GenericDescriptors

/-! ## Interfaces -/

structure Interface where
  descriptor : UsbInterfaceDescriptor
  endpoints : List (Option Endpoint)
  hidDescriptor : Option HID
  genericDescriptors : GenericDescriptors
  /-- `calloc(descriptor.bNumEndpoints)`. -/
  endpoints_length : endpoints.length = descriptor.bNumEndpoints.toNat

namespace Interface

/-- An interface that has its descriptor and no endpoint yet. -/
def new (descriptor : UsbInterfaceDescriptor) (g : GenericDescriptors) : Interface where
  descriptor := descriptor
  endpoints := List.replicate descriptor.bNumEndpoints.toNat none
  hidDescriptor := none
  genericDescriptors := g
  endpoints_length := List.length_replicate

/-- `*ep = endpoint`, the store behind the array not followed. -/
def setEndpoint (i : Interface) (ep : ℕ) (endpoint : Endpoint) : Interface :=
  { i with
    endpoints := i.endpoints.set ep (some endpoint)
    endpoints_length := by rw [List.length_set]; exact i.endpoints_length }

def setHid (i : Interface) (hid : HID) : Interface := { i with hidDescriptor := some hid }

def addGeneric (i : Interface) (d : GenericDescriptor) : Option Interface :=
  (i.genericDescriptors.add d).map fun g => { i with genericDescriptors := g }

def getEndpointByIdx (i : Interface) (index : Byte) : Option Endpoint :=
  if i.descriptor.bNumEndpoints ≤ index then none else (i.endpoints[index.toNat]?).join

def getFullDescriptorLength (i : Interface) : ℕ :=
  i.descriptor.bLength.toNat + total (fun hid => hid.size.toNat) i.hidDescriptor.toList +
    total (fun d => d.size.toNat) i.genericDescriptors.entries +
    total Endpoint.getFullDescriptorLength i.endpoints.reduceOption

def getFullDescriptor (i : Interface) : List Byte :=
  fromStruct i.descriptor.bytes i.descriptor.bLength ++
    i.hidDescriptor.toList.flatMap Record.bytes ++
    i.genericDescriptors.entries.flatMap Record.bytes ++
    i.endpoints.reduceOption.flatMap Endpoint.getFullDescriptor

def isDefined (i : Interface) (configId interfaceNum : Byte) : DefinitionError :=
  let d := i.descriptor
  if d.bLength ≠ 9 then
    ⟨.invalidDescriptor, 0x01, .interface, configId, interfaceNum, d.bAlternateSetting, 0⟩
  else if d.bDescriptorType ≠ USB_DT_INTERFACE then
    ⟨.invalidDescriptor, 0x02, .interface, configId, interfaceNum, d.bAlternateSetting, 0⟩
  else
    .checkEach
      (fun n =>
        ⟨.nullObject, 0x0, .endpoint, configId, interfaceNum, d.bAlternateSetting, UInt8.ofNat n⟩)
      (fun _ ep => ep.isDefined configId interfaceNum d.bAlternateSetting) i.endpoints

variable {i : Interface}

theorem length_getFullDescriptor (i : Interface) :
    i.getFullDescriptor.length = i.getFullDescriptorLength := by
  unfold getFullDescriptor getFullDescriptorLength fromStruct
  simp only [List.length_append, List.takeD_length, length_flatMap Record.length_bytes,
    length_flatMap Endpoint.length_getFullDescriptor]

theorem isDefined_ok {configId interfaceNum : Byte}
    (h : (i.isDefined configId interfaceNum).error = .none) :
    i.descriptor.bLength = 9 ∧ i.descriptor.bDescriptorType = USB_DT_INTERFACE ∧
      ∃ eps : List Endpoint, i.endpoints = eps.map some ∧
        ∀ ep ∈ eps, ep.descriptor.bLength = 7 ∧ ep.descriptor.bDescriptorType = USB_DT_ENDPOINT := by
  unfold isDefined at h
  by_cases hl : i.descriptor.bLength ≠ 9
  · simp [hl] at h
  by_cases ht : i.descriptor.bDescriptorType ≠ USB_DT_INTERFACE
  · simp [hl, ht] at h
  simp only [if_neg hl, if_neg ht] at h
  obtain ⟨eps, heps, hok⟩ := DefinitionError.checkEach_ok (by simp) h
  refine ⟨not_not.1 hl, not_not.1 ht, eps, heps, fun ep hep => ?_⟩
  obtain ⟨n, hn, rfl⟩ := List.getElem_of_mem hep
  exact Endpoint.isDefined_ok (hok n hn)

end Interface

end UsbProxy
