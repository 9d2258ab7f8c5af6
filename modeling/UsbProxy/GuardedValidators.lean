import Mathlib.Data.List.ReduceOption
import UsbProxy.Configuration
import UsbProxy.Library.Guarded

/-!
# The validators, pointer by pointer

`is_defined` and `get_full_descriptor_length` of interfaces, groups and configurations with every array
access and every null test where the source has them.  None of them faults: they come to what the plain
definitions say, whatever is missing in the object.
-/

namespace UsbProxy

open Guarded

/-! ## Loops over arrays of objects -/

/-- `rc.error`. -/
def DefinitionError.failed (rc : DefinitionError) : Bool := rc.error != .none

theorem DefinitionError.failed_eq_false {rc : DefinitionError} :
    rc.failed = false ↔ rc.error = .none := by
  unfold failed
  cases rc.error <;> decide

theorem total_eq_sum {α : Type*} (f : α → ℕ) (xs : List α) : total f xs = (xs.map f).sum := by
  induction xs with
  | nil => rfl
  | cons x xs ih => rw [total, List.map_cons, List.sum_cons, ih]

theorem total_reduceOption {α : Type*} (f : α → ℕ) (l : List (Option α)) :
    total f l.reduceOption = (l.map fun o => o.elim 0 f).sum := by
  rw [total_eq_sum]
  induction l with
  | nil => rfl
  | cons o l ih =>
    cases o with
    | none => simpa [List.reduceOption_cons_of_none] using ih
    | some a => simpa [List.reduceOption_cons_of_some] using ih

theorem scan_eq_first {body : ℕ → Except Fault DefinitionError} (rcs : List DefinitionError) (i : ℕ)
    (h : ∀ n (hn : n < rcs.length), body (i + n) = .ok rcs[n]) :
    scan DefinitionError.failed {} body rcs.length i = .ok (.first rcs) := by
  induction rcs generalizing i with
  | nil => rfl
  | cons rc rcs ih =>
    have hrest := ih (i + 1) fun n hn => by
      have := h (n + 1) (by simpa using hn)
      rwa [Nat.add_assoc, Nat.add_comm 1]
    rw [List.length_cons, scan, hrest]
    have hhead := h 0 (by simp)
    rw [Nat.add_zero, List.getElem_cons_zero] at hhead
    rw [hhead, DefinitionError.first]
    unfold andThen DefinitionError.orElse DefinitionError.failed
    show (if _ then _ else _) = _
    by_cases hrc : rc.error = .none <;> simp [hrc]

/-- A loop that reads each entry of an array and checks what it points to. -/
theorem scan_eq_checkEach {α : Type*} {nullObject : ℕ → DefinitionError}
    {check : ℕ → α → DefinitionError} {body : ℕ → Except Fault DefinitionError}
    {objects : List (Option α)}
    (h : ∀ n (hn : n < objects.length),
      body n = .ok (objects[n].elim (nullObject n) (check n))) :
    scan DefinitionError.failed {} body objects.length 0 =
      .ok (.checkEach nullObject check objects) := by
  have hscan : scan DefinitionError.failed {} body _ 0 = _ := scan_eq_first
    (objects.mapIdx fun n object => object.elim (nullObject n) (check n)) 0 fun n hn => by
      rw [Nat.zero_add, List.getElem_mapIdx]
      exact h n (by simpa using hn)
  rwa [List.length_mapIdx] at hscan

/-! ## Interfaces -/

namespace Interface

def guardedLength (i : Interface) : Except Fault ℕ :=
  let total := i.descriptor.bLength.toNat
  let total := total + i.hidDescriptor.elim 0 fun hid => hid.size.toNat
  (sum (fun n => (load i.genericDescriptors.entries n).bind fun d => .ok d.size.toNat)
    i.genericDescriptors.count.toNat 0 total).bind fun total =>
  sum (fun n => (load i.endpoints n).bind fun ep => .ok (ep.elim 0 Endpoint.getFullDescriptorLength))
    i.descriptor.bNumEndpoints.toNat 0 total

def guardedIsDefined (i : Interface) (configId interfaceNum : Byte) : Except Fault DefinitionError :=
  let d := i.descriptor
  if d.bLength ≠ 9 then
    .ok ⟨.invalidDescriptor, 0x01, .interface, configId, interfaceNum, d.bAlternateSetting, 0⟩
  else if d.bDescriptorType ≠ USB_DT_INTERFACE then
    .ok ⟨.invalidDescriptor, 0x02, .interface, configId, interfaceNum, d.bAlternateSetting, 0⟩
  else
    scan DefinitionError.failed {}
      (fun n => (load i.endpoints n).bind fun ep =>
        match ep with
        | none => .ok ⟨.nullObject, 0x0, .endpoint, configId, interfaceNum, d.bAlternateSetting,
            UInt8.ofNat n⟩
        | some ep => .ok (ep.isDefined configId interfaceNum d.bAlternateSetting))
      d.bNumEndpoints.toNat 0

theorem guardedLength_eq (i : Interface) : i.guardedLength = .ok i.getFullDescriptorLength := by
  unfold guardedLength getFullDescriptorLength
  have hgeneric : ∀ t, sum (fun n => (load i.genericDescriptors.entries n).bind
      fun d => .ok d.size.toNat) i.genericDescriptors.count.toNat 0 t =
        .ok (t + total (fun d => d.size.toNat) i.genericDescriptors.entries) := by
    intro t
    rw [← i.genericDescriptors.length_eq, total_eq_sum]
    exact sum_load_all (fun d : GenericDescriptor => d.size.toNat) (fun _ => rfl) t
  have hendpoints : ∀ t, sum (fun n => (load i.endpoints n).bind
      fun ep => .ok (ep.elim 0 Endpoint.getFullDescriptorLength)) i.descriptor.bNumEndpoints.toNat 0 t =
        .ok (t + total Endpoint.getFullDescriptorLength i.endpoints.reduceOption) := by
    intro t
    rw [← i.endpoints_length, total_reduceOption]
    exact sum_load_all (fun ep : Option Endpoint => ep.elim 0 Endpoint.getFullDescriptorLength)
      (fun _ => rfl) t
  dsimp only
  rw [hgeneric]
  show sum _ _ 0 _ = _
  rw [hendpoints]
  cases i.hidDescriptor <;> simp [total]

theorem guardedIsDefined_eq (i : Interface) (configId interfaceNum : Byte) :
    i.guardedIsDefined configId interfaceNum = .ok (i.isDefined configId interfaceNum) := by
  unfold guardedIsDefined isDefined
  refine ite_eq_ok (ite_eq_ok ?_)
  rw [← i.endpoints_length]
  refine scan_eq_checkEach fun n hn => ?_
  rw [load_of_lt hn]
  cases i.endpoints[n] <;> rfl

end Interface

/-! ## Interface groups -/

namespace InterfaceGroup

def guardedLength (g : InterfaceGroup) : Except Fault ℕ :=
  sum (fun n => (load g.interfaces n).bind fun i =>
      match i with
      | none => .ok 0
      | some i => i.guardedLength)
    g.alternateCount.toNat 0 0

def guardedIsDefined (g : InterfaceGroup) (configId : Byte) : Except Fault DefinitionError :=
  if g.alternateCount = 0 then .ok ⟨.nullObject, 0x0, .interface, configId, g.number, 0, 0⟩
  else
    scan DefinitionError.failed {}
      (fun n => (load g.interfaces n).bind fun i =>
        match i with
        | none => .ok ⟨.nullObject, 0x0, .interface, configId, g.number, UInt8.ofNat n, 0⟩
        | some i =>
          let alternate := i.descriptor.bAlternateSetting
          if i.descriptor.bInterfaceNumber ≠ g.number then
            .ok ⟨.misplacedIfNum, alternate.toUInt16, .interface, configId, g.number, UInt8.ofNat n, 0⟩
          else if alternate.toNat ≠ n then
            .ok ⟨.misplacedObject, alternate.toUInt16, .interface, configId, g.number, UInt8.ofNat n, 0⟩
          else i.guardedIsDefined configId g.number)
      g.alternateCount.toNat 0

/-- `get_interface`. -/
def guardedGet (g : InterfaceGroup) (alternate : Byte) : Except Fault (Option Interface) :=
  if g.alternateCount ≤ alternate then .ok none else load g.interfaces alternate.toNat

theorem guardedLength_eq (g : InterfaceGroup) : g.guardedLength = .ok g.getFullDescriptorLength := by
  unfold guardedLength getFullDescriptorLength alternates
  rw [sum_load (fun i : Option Interface => i.elim 0 Interface.getFullDescriptorLength) (fun i => ?_) _
    0 0 (by rw [Nat.zero_add]; exact g.count_le), List.drop_zero, Nat.zero_add, total_reduceOption]
  cases i with
  | none => rfl
  | some i => exact i.guardedLength_eq

theorem guardedIsDefined_eq (g : InterfaceGroup) (configId : Byte) :
    g.guardedIsDefined configId = .ok (g.isDefined configId) := by
  unfold guardedIsDefined isDefined
  refine ite_eq_ok ?_
  have hlength : g.alternates.length = g.alternateCount.toNat := List.length_take_of_le g.count_le
  rw [← hlength]
  refine scan_eq_checkEach fun n hn => ?_
  have hlt : n < g.interfaces.length := Nat.lt_of_lt_of_le (hlength ▸ hn) g.count_le
  have hget : g.alternates[n] = g.interfaces[n] := List.getElem_take
  rw [load_of_lt hlt, hget]
  cases g.interfaces[n] with
  | none => rfl
  | some i => exact ite_eq_ok (ite_eq_ok (i.guardedIsDefined_eq configId g.number))

theorem guardedGet_eq (g : InterfaceGroup) (alternate : Byte) :
    g.guardedGet alternate = .ok (g.getInterface alternate) := by
  unfold guardedGet getInterface
  split_ifs with h
  · rfl
  · have hlt : alternate.toNat < g.interfaces.length :=
      Nat.lt_of_lt_of_le (UInt8.lt_iff_toNat_lt.1 (UInt8.not_le.1 h)) g.count_le
    rw [load_of_lt hlt, List.getElem?_eq_getElem hlt, Option.join_some]

end InterfaceGroup

/-! ## Configurations -/

namespace Configuration

def guardedLength (c : Configuration) : Except Fault ℕ :=
  sum (fun n => (load c.interfaceGroups n).bind fun g =>
      match g with
      | none => .ok 0
      | some g => g.guardedLength)
    c.descriptor.bNumInterfaces.toNat 0 c.descriptor.bLength.toNat

def guardedIsDefined (c : Configuration) (highSpeed : Bool) : Except Fault DefinitionError :=
  let d := c.descriptor
  let configId := (if highSpeed then 0x80 else 0x0) ||| d.bConfigurationValue
  let invalid detail : DefinitionError :=
    ⟨.invalidDescriptor, detail, if highSpeed then .osConfig else .config, configId, 0, 0, 0⟩
  if d.bLength ≠ 9 then .ok (invalid 0x01)
  else if d.bDescriptorType ≠ (if highSpeed then USB_DT_OTHER_SPEED_CONFIG else USB_DT_CONFIG) then
    .ok (invalid 0x02)
  else c.guardedLength.bind fun length =>
    if d.wTotalLength.toNat ≠ length then .ok (invalid 0x03)
    else if d.bNumInterfaces = 0 then .ok (invalid 0x05)
    else if d.bmAttributes &&& 0x9f ≠ 0x80 then .ok (invalid 0x08)
    else
      scan DefinitionError.failed {}
        (fun n => (load c.interfaceGroups n).bind fun g =>
          match g with
          | none => .ok ⟨.nullObject, 0x0, .interfaceGroup, configId, UInt8.ofNat n, 0, 0⟩
          | some g =>
            if g.number.toNat ≠ n then
              .ok ⟨.misplacedObject, g.number.toUInt16, .interfaceGroup, configId, UInt8.ofNat n, 0, 0⟩
            else g.guardedIsDefined configId)
        d.bNumInterfaces.toNat 0

/-- `get_interface_alternate_count`. -/
def guardedAlternateCount (c : Configuration) (number : Byte) : Except Fault Byte :=
  (load c.interfaceGroups number.toNat).map fun g => g.elim 0 InterfaceGroup.alternateCount

/-- `get_interface_alternate`. -/
def guardedAlternate (c : Configuration) (number alternate : Byte) :
    Except Fault (Option Interface) :=
  if c.descriptor.bNumInterfaces ≤ number then .ok none
  else (load c.interfaceGroups number.toNat).bind fun g =>
    match g with
    | none => .ok none
    | some g => g.guardedGet alternate

theorem guardedLength_eq (c : Configuration) : c.guardedLength = .ok c.getFullDescriptorLength := by
  unfold guardedLength getFullDescriptorLength
  rw [← c.groups_length, total_reduceOption]
  refine sum_load_all (fun g : Option InterfaceGroup => g.elim 0 InterfaceGroup.getFullDescriptorLength)
    (fun g => ?_) _
  cases g with
  | none => rfl
  | some g => exact g.guardedLength_eq

/-- **Whatever is missing in a configuration, its validator comes to its verdict without a fault.** -/
theorem guardedIsDefined_eq (c : Configuration) (highSpeed : Bool) :
    c.guardedIsDefined highSpeed = .ok (c.isDefined highSpeed) := by
  unfold guardedIsDefined isDefined
  rw [c.guardedLength_eq]
  refine ite_eq_ok (ite_eq_ok ?_)
  refine ite_eq_ok (ite_eq_ok (ite_eq_ok ?_))
  rw [← c.groups_length]
  refine scan_eq_checkEach fun n hn => ?_
  rw [load_of_lt hn]
  cases c.interfaceGroups[n] with
  | none => rfl
  | some g => exact ite_eq_ok (g.guardedIsDefined_eq _)

theorem guardedAlternateCount_eq (c : Configuration) {number : Byte}
    (h : number < c.descriptor.bNumInterfaces) :
    c.guardedAlternateCount number = .ok (c.getInterfaceAlternateCount number) := by
  have hlt : number.toNat < c.interfaceGroups.length :=
    c.groups_length ▸ UInt8.lt_iff_toNat_lt.1 h
  unfold guardedAlternateCount getInterfaceAlternateCount
  rw [load_of_lt hlt, List.getElem?_eq_getElem hlt, Option.join_some]
  rfl

theorem guardedAlternate_eq (c : Configuration) (number alternate : Byte) :
    c.guardedAlternate number alternate = .ok (c.getInterfaceAlternate number alternate) := by
  unfold guardedAlternate getInterfaceAlternate group
  split_ifs with h
  · rfl
  · have hlt : number.toNat < c.interfaceGroups.length :=
      c.groups_length ▸ UInt8.lt_iff_toNat_lt.1 (UInt8.not_le.1 h)
    rw [load_of_lt hlt, List.getElem?_eq_getElem hlt, Option.join_some]
    cases c.interfaceGroups[number.toNat] with
    | none => rfl
    | some g => exact g.guardedGet_eq alternate

end Configuration

end UsbProxy
