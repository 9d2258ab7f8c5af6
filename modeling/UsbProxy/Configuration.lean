import UsbProxy.Interface

/-!
# Interface groups and configurations

`InterfaceGroup` keeps the alternate settings of one interface number, `Configuration` the groups of
one configuration.  Both arrays grow through `add_interface`; `get_full_descriptor` walks them in
order and skips null entries; `is_defined` accepts an array only when it is full and every object
stands at its own index.
-/

namespace UsbProxy

open Records

/-! ## Interface groups -/

structure InterfaceGroup where
  number : Byte
  alternateCount : Byte
  interfaces : List (Option Interface)
  activeAlternateIndex : ℤ
  /-- `calloc(alternate + 1)`, the count kept in a byte: it is 0 for an array of 256 entries. -/
  count_eq : alternateCount = UInt8.ofNat interfaces.length
  length_le : interfaces.length ≤ 256

namespace InterfaceGroup

def new (number : Byte) : InterfaceGroup where
  number := number
  alternateCount := 0
  interfaces := []
  activeAlternateIndex := -1
  count_eq := rfl
  length_le := by simp

theorem count_le (g : InterfaceGroup) : g.alternateCount.toNat ≤ g.interfaces.length := by
  rw [g.count_eq, UInt8.toNat_ofNat']
  exact Nat.mod_le ..

def addInterface (g : InterfaceGroup) (i : Interface) : InterfaceGroup :=
  let alternate := i.descriptor.bAlternateSetting
  if h : g.alternateCount ≤ alternate then
    { g with
      alternateCount := alternate + 1
      interfaces := g.interfaces.take g.alternateCount.toNat ++
        List.replicate (alternate.toNat - g.alternateCount.toNat) none ++ [some i]
      count_eq := by
        have hle := UInt8.le_iff_toNat_le.1 h
        have hc := g.count_le
        simp only [List.length_append, List.length_take, List.length_replicate, List.length_singleton,
          Nat.min_eq_left hc, Nat.add_sub_cancel' hle]
        rw [UInt8.ofNat_add, UInt8.ofNat_toNat]
        rfl
      length_le := by
        have hle := UInt8.le_iff_toNat_le.1 h
        have hc := g.count_le
        have ha := alternate.toNat_lt
        simp only [List.length_append, List.length_take, List.length_replicate, List.length_singleton,
          Nat.min_eq_left hc, Nat.add_sub_cancel' hle]
        omega }
  else
    { g with
      interfaces := g.interfaces.set alternate.toNat (some i)
      count_eq := by rw [List.length_set]; exact g.count_eq
      length_le := by rw [List.length_set]; exact g.length_le }

/-- The entries the loops over `alternateCount` see. -/
def alternates (g : InterfaceGroup) : List (Option Interface) :=
  g.interfaces.take g.alternateCount.toNat

def getInterface (g : InterfaceGroup) (alternate : Byte) : Option Interface :=
  if g.alternateCount ≤ alternate then none else (g.interfaces[alternate.toNat]?).join

/-- The index is narrowed to a byte on the way to `get_interface`. -/
def getActiveInterface (g : InterfaceGroup) : Option Interface :=
  if g.activeAlternateIndex < 0 then none
  else g.getInterface (UInt8.ofNat g.activeAlternateIndex.toNat)

def getFullDescriptorLength (g : InterfaceGroup) : ℕ :=
  total Interface.getFullDescriptorLength g.alternates.reduceOption

def getFullDescriptor (g : InterfaceGroup) : List Byte :=
  g.alternates.reduceOption.flatMap Interface.getFullDescriptor

def isDefined (g : InterfaceGroup) (configId : Byte) : DefinitionError :=
  if g.alternateCount = 0 then ⟨.nullObject, 0x0, .interface, configId, g.number, 0, 0⟩
  else
    .checkEach (fun n => ⟨.nullObject, 0x0, .interface, configId, g.number, UInt8.ofNat n, 0⟩)
      (fun n i =>
        let alternate := i.descriptor.bAlternateSetting
        if i.descriptor.bInterfaceNumber ≠ g.number then
          ⟨.misplacedIfNum, alternate.toUInt16, .interface, configId, g.number, UInt8.ofNat n, 0⟩
        else if alternate.toNat ≠ n then
          ⟨.misplacedObject, alternate.toUInt16, .interface, configId, g.number, UInt8.ofNat n, 0⟩
        else i.isDefined configId g.number)
      g.alternates

variable {g : InterfaceGroup}

theorem length_getFullDescriptor (g : InterfaceGroup) :
    g.getFullDescriptor.length = g.getFullDescriptorLength :=
  length_flatMap Interface.length_getFullDescriptor _

/-- Only an array of 256 entries wraps its count. -/
theorem toNat_alternateCount (h : g.interfaces.length ≤ 255) :
    g.alternateCount.toNat = g.interfaces.length := by
  rw [g.count_eq, UInt8.toNat_ofNat_of_lt' (by show _ < 256; omega)]

theorem alternates_of_length_le (h : g.interfaces.length ≤ 255) : g.alternates = g.interfaces := by
  unfold alternates
  rw [toNat_alternateCount h, List.take_length]

theorem interfaces_addInterface {i : Interface} (hlen : g.interfaces.length ≤ 255)
    (hi : i.descriptor.bAlternateSetting.toNat = g.interfaces.length) :
    (g.addInterface i).interfaces = g.interfaces ++ [some i] := by
  have hc := toNat_alternateCount hlen
  have hle : g.alternateCount ≤ i.descriptor.bAlternateSetting :=
    UInt8.le_iff_toNat_le.2 (by omega)
  unfold addInterface
  simp only [dif_pos hle]
  rw [hi, hc, Nat.sub_self, List.take_length, List.replicate_zero, List.append_nil]

@[simp] theorem number_addInterface (i : Interface) : (g.addInterface i).number = g.number := by
  unfold addInterface
  by_cases h : g.alternateCount ≤ i.descriptor.bAlternateSetting
  · simp only [dif_pos h]
  · simp only [dif_neg h]

theorem isDefined_ok {configId : Byte} (h : (g.isDefined configId).error = .none) :
    ∃ is : List Interface, g.interfaces = is.map some ∧ g.alternates = is.map some ∧ is ≠ [] ∧
      ∀ n (hn : n < is.length), is[n].descriptor.bInterfaceNumber = g.number ∧
        is[n].descriptor.bAlternateSetting.toNat = n ∧
        (is[n].isDefined configId g.number).error = .none := by
  unfold isDefined at h
  by_cases h0 : g.alternateCount = 0
  · simp [h0] at h
  rw [if_neg h0] at h
  -- A count that is not 0 has not wrapped.
  have hlen : g.interfaces.length ≤ 255 := by
    have hle := g.length_le
    by_contra hcon
    apply h0
    rw [g.count_eq, show g.interfaces.length = 256 by omega]
    rfl
  obtain ⟨is, his, hok⟩ := DefinitionError.checkEach_ok (by simp) h
  refine ⟨is, (alternates_of_length_le hlen).symm.trans his, his, ?_, fun n hn => ?_⟩
  · rintro rfl
    rw [alternates_of_length_le hlen, List.map_nil] at his
    apply h0
    rw [g.count_eq, his]
    rfl
  · have hi := hok n hn
    by_cases hnum : is[n].descriptor.bInterfaceNumber ≠ g.number
    · simp [hnum] at hi
    by_cases halt : is[n].descriptor.bAlternateSetting.toNat ≠ n
    · simp [hnum, halt] at hi
    rw [if_neg hnum, if_neg halt] at hi
    exact ⟨not_not.1 hnum, not_not.1 halt, hi⟩

end InterfaceGroup

/-! ## Configurations -/

structure Configuration where
  descriptor : UsbConfigDescriptor
  interfaceGroups : List (Option InterfaceGroup)
  /-- `calloc(descriptor.bNumInterfaces)`. -/
  groups_length : interfaceGroups.length = descriptor.bNumInterfaces.toNat

namespace Configuration

/-- A configuration that has its descriptor and no interface yet. -/
def new (descriptor : UsbConfigDescriptor) : Configuration where
  descriptor := descriptor
  interfaceGroups := List.replicate descriptor.bNumInterfaces.toNat none
  groups_length := List.length_replicate

/-- A group outside the array is not followed. -/
def addInterface (c : Configuration) (i : Interface) : Configuration :=
  let number := i.descriptor.bInterfaceNumber
  { c with
    interfaceGroups := c.interfaceGroups.modify number.toNat fun g =>
      some ((g.getD (.new number)).addInterface i)
    groups_length := by rw [List.length_modify]; exact c.groups_length }

/-- `interfaceGroups[number]` behind the range check both lookups make. -/
def group (c : Configuration) (number : Byte) : Option InterfaceGroup :=
  if c.descriptor.bNumInterfaces ≤ number then none else (c.interfaceGroups[number.toNat]?).join

def getInterfaceAlternate (c : Configuration) (number alternate : Byte) : Option Interface :=
  (c.group number).bind fun g => g.getInterface alternate

def getInterface (c : Configuration) (number : Byte) : Option Interface :=
  (c.group number).bind InterfaceGroup.getActiveInterface

/-- A group behind the array is not followed. -/
def getInterfaceAlternateCount (c : Configuration) (number : Byte) : Byte :=
  (c.interfaceGroups[number.toNat]?).join.elim 0 InterfaceGroup.alternateCount

/-- The endpoint at an index of an alternate setting of an interface number. -/
def endpointAt (c : Configuration) (number alternate index : Byte) : Option Endpoint :=
  (c.getInterfaceAlternate number alternate).bind fun i => i.getEndpointByIdx index

def getFullDescriptorLength (c : Configuration) : ℕ :=
  c.descriptor.bLength.toNat +
    total InterfaceGroup.getFullDescriptorLength c.interfaceGroups.reduceOption

def getFullDescriptor (c : Configuration) : List Byte :=
  fromStruct c.descriptor.bytes c.descriptor.bLength ++
    c.interfaceGroups.reduceOption.flatMap InterfaceGroup.getFullDescriptor

def isDefined (c : Configuration) (highSpeed : Bool) : DefinitionError :=
  let d := c.descriptor
  let configId := (if highSpeed then 0x80 else 0x0) ||| d.bConfigurationValue
  let invalid detail : DefinitionError :=
    ⟨.invalidDescriptor, detail, if highSpeed then .osConfig else .config, configId, 0, 0, 0⟩
  if d.bLength ≠ 9 then invalid 0x01
  else if d.bDescriptorType ≠ (if highSpeed then USB_DT_OTHER_SPEED_CONFIG else USB_DT_CONFIG) then
    invalid 0x02
  else if d.wTotalLength.toNat ≠ c.getFullDescriptorLength then invalid 0x03
  else if d.bNumInterfaces = 0 then invalid 0x05
  else if d.bmAttributes &&& 0x9f ≠ 0x80 then invalid 0x08
  else
    .checkEach (fun n => ⟨.nullObject, 0x0, .interfaceGroup, configId, UInt8.ofNat n, 0, 0⟩)
      (fun n g =>
        if g.number.toNat ≠ n then
          ⟨.misplacedObject, g.number.toUInt16, .interfaceGroup, configId, UInt8.ofNat n, 0, 0⟩
        else g.isDefined configId)
      c.interfaceGroups

variable {c : Configuration}

theorem length_getFullDescriptor (c : Configuration) :
    c.getFullDescriptor.length = c.getFullDescriptorLength := by
  unfold getFullDescriptor getFullDescriptorLength fromStruct
  simp only [List.length_append, List.takeD_length,
    length_flatMap InterfaceGroup.length_getFullDescriptor]

theorem isDefined_ok {highSpeed : Bool} (h : (c.isDefined highSpeed).error = .none) :
    c.descriptor.bLength = 9 ∧ c.descriptor.wTotalLength.toNat = c.getFullDescriptor.length ∧
      ∃ groups : List InterfaceGroup, c.interfaceGroups = groups.map some ∧
        ∀ n (hn : n < groups.length), groups[n].number.toNat = n ∧
          ∃ configId, (groups[n].isDefined configId).error = .none := by
  unfold isDefined at h
  by_cases hl : c.descriptor.bLength ≠ 9
  · simp [hl] at h
  by_cases ht : c.descriptor.bDescriptorType ≠
      (if highSpeed then USB_DT_OTHER_SPEED_CONFIG else USB_DT_CONFIG)
  · simp [hl, ht] at h
  by_cases hw : c.descriptor.wTotalLength.toNat ≠ c.getFullDescriptorLength
  · simp [hl, ht, hw] at h
  by_cases hn : c.descriptor.bNumInterfaces = 0
  · simp [hl, ht, hw, hn] at h
  by_cases ha : c.descriptor.bmAttributes &&& 0x9f ≠ 0x80
  · simp [hl, ht, hw, hn, ha] at h
  simp only [if_neg hl, if_neg ht, if_neg hw, if_neg hn, if_neg ha] at h
  obtain ⟨groups, hgroups, hok⟩ := DefinitionError.checkEach_ok (by simp) h
  refine ⟨not_not.1 hl, ?_, groups, hgroups, fun n hn => ?_⟩
  · rw [length_getFullDescriptor]
    exact not_not.1 hw
  · have hg := hok n hn
    by_cases hnum : groups[n].number.toNat ≠ n
    · simp [hnum] at hg
    rw [if_neg hnum] at hg
    exact ⟨not_not.1 hnum, _, hg⟩

end Configuration

/-! ## Adding interfaces in order -/

/-- Interface numbers from `number` on without a gap, with at least one alternate setting each, those
from 0 on without a gap. -/
def Numbered (number : ℕ) : List (List UsbInterfaceDescriptor) → Prop
  | [] => True
  | ds :: groups =>
    (ds ≠ [] ∧ ∀ m (hm : m < ds.length),
      ds[m].bInterfaceNumber.toNat = number ∧ ds[m].bAlternateSetting.toNat = m) ∧
    Numbered (number + 1) groups

theorem InterfaceGroup.foldl_addInterface (g : InterfaceGroup) (is before : List Interface)
    (hg : g.interfaces = before.map some) (hlen : before.length + is.length ≤ 255)
    (his : ∀ m (hm : m < is.length),
      is[m].descriptor.bAlternateSetting.toNat = before.length + m) :
    (is.foldl addInterface g).interfaces = (before ++ is).map some ∧
      (is.foldl addInterface g).number = g.number := by
  induction is generalizing g before with
  | nil => exact ⟨by rw [List.append_nil]; exact hg, rfl⟩
  | cons i is ih =>
    simp only [List.length_cons] at hlen
    have hi := his 0 (by simp)
    have hadd : (g.addInterface i).interfaces = (before ++ [i]).map some := by
      rw [interfaces_addInterface (by rw [hg, List.length_map]; omega)
        (by rw [hg, List.length_map]; exact hi), hg, List.map_append]
      rfl
    obtain ⟨hints, hnum⟩ := ih (g.addInterface i) (before ++ [i]) hadd (by simp; omega) fun m hm => by
      have := his (m + 1) (by simpa using hm)
      rw [List.length_append, List.length_singleton]
      rw [List.getElem_cons_succ] at this
      omega
    refine ⟨?_, hnum.trans (number_addInterface i)⟩
    rw [List.foldl_cons, hints, List.append_assoc]
    rfl

namespace Configuration

/-- The interfaces of one number all go to the group of that number. -/
theorem foldl_sameNumber {number : Byte} {is : List Interface} (hne : is ≠ [])
    (his : ∀ i ∈ is, i.descriptor.bInterfaceNumber = number) (c : Configuration) :
    (is.foldl addInterface c).interfaceGroups = c.interfaceGroups.modify number.toNat (fun g =>
      some (is.foldl InterfaceGroup.addInterface (g.getD (.new number)))) := by
  induction is generalizing c with
  | nil => exact absurd rfl hne
  | cons i is ih =>
    have hi := his i (List.mem_cons_self ..)
    have hadd : (c.addInterface i).interfaceGroups = c.interfaceGroups.modify number.toNat fun g =>
        some ((g.getD (.new number)).addInterface i) := by
      unfold addInterface
      simp only [hi]
    rw [List.foldl_cons]
    by_cases h : is = []
    · rw [h]
      exact hadd
    · rw [ih h (fun j hj => his j (List.mem_cons_of_mem _ hj)), hadd, List.modify_modify_eq]
      rfl

theorem descriptor_foldl (is : List Interface) (c : Configuration) :
    (is.foldl addInterface c).descriptor = c.descriptor := by
  induction is generalizing c with
  | nil => rfl
  | cons i is ih => exact ih (c.addInterface i)

theorem foldl_numbered (groups : List (List Interface)) (before : List InterfaceGroup)
    (c : Configuration) (hc : c.interfaceGroups = before.map some ++ List.replicate groups.length none)
    (hlen : before.length + groups.length ≤ 255) (halt : ∀ is ∈ groups, is.length ≤ 255)
    (hnum : Numbered before.length (groups.map (List.map Interface.descriptor))) :
    ∃ gs : List InterfaceGroup, (groups.flatten.foldl addInterface c).interfaceGroups =
        (before ++ gs).map some ∧
      gs.map InterfaceGroup.interfaces = groups.map (List.map some) ∧
      gs.map (fun g => g.number.toNat) = List.range' before.length groups.length := by
  induction groups generalizing before c with
  | nil => exact ⟨[], by simpa using hc, rfl, rfl⟩
  | cons is groups ih =>
    obtain ⟨⟨hne, his⟩, hnum'⟩ := hnum
    simp only [List.length_cons] at hc hlen
    have hnumber : ∀ i ∈ is, i.descriptor.bInterfaceNumber = UInt8.ofNat before.length := by
      intro i hi
      obtain ⟨m, hm, rfl⟩ := List.getElem_of_mem hi
      have := (his m (by simpa using hm)).1
      rw [List.getElem_map] at this
      rw [← this, UInt8.ofNat_toNat]
    have hof : (UInt8.ofNat before.length).toNat = before.length :=
      UInt8.toNat_ofNat_of_lt' (by show _ < 256; omega)
    -- The group of this number is the first null entry, and its array gets all of `is`.
    obtain ⟨hints, hgnum⟩ := InterfaceGroup.foldl_addInterface
      (.new (UInt8.ofNat before.length)) is [] rfl (by simpa using halt is (List.mem_cons_self ..)) fun m hm => by
        have := (his m (by simpa using hm)).2
        rw [List.getElem_map] at this
        simpa using this
    have hadd : (is.foldl addInterface c).interfaceGroups =
        (before ++ [is.foldl InterfaceGroup.addInterface (.new (UInt8.ofNat before.length))]).map some
          ++ List.replicate groups.length none := by
      rw [foldl_sameNumber (by simpa using hne) hnumber, hof, hc, List.replicate_succ,
        List.modify_eq_take_cons_drop (by simp)]
      simp [List.drop_append]
    obtain ⟨gs, hgs, hall, hnums⟩ := ih _ _ hadd (by simp; omega)
      (fun is' h' => halt is' (List.mem_cons_of_mem _ h')) (by simpa using hnum')
    refine ⟨is.foldl InterfaceGroup.addInterface (.new (UInt8.ofNat before.length)) :: gs, ?_, ?_, ?_⟩
    · rw [List.flatten_cons, List.foldl_append, hgs, List.append_assoc]
      rfl
    · rw [List.map_cons, List.map_cons, hints, hall]
      rfl
    · rw [List.map_cons, hnums, hgnum, List.length_append, List.length_singleton]
      show _ :: _ = List.range' before.length (groups.length + 1)
      rw [List.range'_succ]
      exact congrArg (· :: _) hof

end Configuration

end UsbProxy
