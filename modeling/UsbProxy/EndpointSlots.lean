import Mathlib.Data.List.ReduceOption
import Mathlib.Data.List.TakeWhile
import UsbProxy.Configuration

/-!
# The endpoints of a configuration

`HostProxy_GadgetFS::setConfig` and `Manager::start_data_relaying` run the same three nested loops over
interface numbers, alternate settings and endpoint slots.  `endpointSlots` lists what they come to, the
null objects they would follow included.
-/

namespace UsbProxy

/-- An endpoint with the three loop indices and the objects the loops hold there. -/
structure EndpointSlot where
  ifcIdx : Byte
  aifcIdx : Byte
  epIdx : Byte
  fsAifc : Interface
  fsEp : Endpoint

/-- `0, .., n-1` as loop indices. -/
def indices (n : Byte) : List Byte := (List.range n.toNat).map UInt8.ofNat

/-- The endpoints in the order of the loops; a null interface or endpoint in between is `none`. -/
def Configuration.endpointSlots (c : Configuration) : List (Option EndpointSlot) :=
  (indices c.descriptor.bNumInterfaces).flatMap fun ifcIdx =>
    (indices (c.getInterfaceAlternateCount ifcIdx)).flatMap fun aifcIdx =>
      match c.getInterfaceAlternate ifcIdx aifcIdx with
      | none => [none]
      | some fsAifc => (indices fsAifc.descriptor.bNumEndpoints).map fun epIdx =>
          (fsAifc.getEndpointByIdx epIdx).map fun fsEp => ⟨ifcIdx, aifcIdx, epIdx, fsAifc, fsEp⟩

def Configuration.reached (c : Configuration) : List EndpointSlot :=
  (c.endpointSlots.takeWhile Option.isSome).reduceOption

/-! ## The slots -/

theorem mem_indices {n i : Byte} : i ∈ indices n ↔ i < n := by
  unfold indices
  rw [List.mem_map, UInt8.lt_iff_toNat_lt]
  constructor
  · rintro ⟨k, hk, rfl⟩
    rw [List.mem_range] at hk
    rwa [toNat_ofNat_of_lt hk]
  · intro h
    exact ⟨i.toNat, List.mem_range.2 h, UInt8.ofNat_toNat⟩

section Slots

variable {c : Configuration} {number alternate index : Byte} {i : Interface} {s : EndpointSlot}

theorem lt_of_getInterfaceAlternate (h : c.getInterfaceAlternate number alternate = some i) :
    number < c.descriptor.bNumInterfaces ∧ alternate < c.getInterfaceAlternateCount number := by
  obtain ⟨g, hg, hi⟩ := Option.bind_eq_some_iff.1 h
  unfold Configuration.group at hg
  unfold InterfaceGroup.getInterface at hi
  split_ifs at hg hi with hn ha
  refine ⟨UInt8.not_le.1 hn, ?_⟩
  rw [Configuration.getInterfaceAlternateCount, hg]
  exact UInt8.not_le.1 ha

theorem lt_of_getEndpointByIdx {ep : Endpoint} (h : i.getEndpointByIdx index = some ep) :
    index < i.descriptor.bNumEndpoints := by
  unfold Interface.getEndpointByIdx at h
  split_ifs at h with hn
  exact UInt8.not_le.1 hn

theorem some_mem_endpointSlots : some s ∈ c.endpointSlots ↔
    c.getInterfaceAlternate s.ifcIdx s.aifcIdx = some s.fsAifc ∧
      s.fsAifc.getEndpointByIdx s.epIdx = some s.fsEp := by
  unfold Configuration.endpointSlots
  simp only [List.mem_flatMap, mem_indices]
  constructor
  · rintro ⟨ifcIdx, -, aifcIdx, -, hmem⟩
    cases hi : c.getInterfaceAlternate ifcIdx aifcIdx with
    | none => simp [hi] at hmem
    | some fsAifc =>
      simp only [hi, List.mem_map] at hmem
      obtain ⟨epIdx, -, hs⟩ := hmem
      obtain ⟨fsEp, hep, rfl⟩ := Option.map_eq_some_iff.1 hs
      exact ⟨hi, hep⟩
  · rintro ⟨hi, hep⟩
    obtain ⟨hifc, haifc⟩ := lt_of_getInterfaceAlternate hi
    refine ⟨s.ifcIdx, hifc, s.aifcIdx, haifc, ?_⟩
    simp only [hi, List.mem_map, mem_indices]
    exact ⟨s.epIdx, lt_of_getEndpointByIdx hep, by rw [hep]; rfl⟩

theorem mem_reached (h : s ∈ c.reached) : some s ∈ c.endpointSlots := by
  unfold Configuration.reached at h
  rw [List.reduceOption_mem_iff] at h
  exact (List.takeWhile_sublist _).subset h

/-- Without a null object every endpoint is reached. -/
theorem mem_reached_iff (hfull : none ∉ c.endpointSlots) : s ∈ c.reached ↔ some s ∈ c.endpointSlots := by
  unfold Configuration.reached
  rw [List.reduceOption_mem_iff, List.takeWhile_eq_self_iff.2 fun slot hslot => ?_]
  cases slot with
  | none => exact absurd hslot hfull
  | some s => rfl

theorem endpointAt_of_mem (h : some s ∈ c.endpointSlots) :
    c.endpointAt s.ifcIdx s.aifcIdx s.epIdx = some s.fsEp := by
  obtain ⟨hi, hep⟩ := some_mem_endpointSlots.1 h
  unfold Configuration.endpointAt
  rw [hi]
  exact hep

end Slots

/-! ## Lookups and arrays -/

section Lookups

variable {c : Configuration} {g : InterfaceGroup} {i : Interface}

theorem mem_iff_lookup {α : Type} {l : List (Option α)} {n : Byte} (h : l.length = n.toNat)
    {slot : Option α} : slot ∈ l ↔ ∃ index < n, slot = (l[index.toNat]?).join := by
  constructor
  · intro hmem
    obtain ⟨k, hk, rfl⟩ := List.getElem_of_mem hmem
    have hbyte : (UInt8.ofNat k).toNat = k := toNat_ofNat_of_lt (h ▸ hk)
    refine ⟨UInt8.ofNat k, UInt8.lt_iff_toNat_lt.2 (by rw [hbyte]; omega), ?_⟩
    rw [hbyte, List.getElem?_eq_getElem hk, Option.join_some]
  · rintro ⟨index, hlt, rfl⟩
    have hlt' : index.toNat < l.length := by
      rw [h]
      exact UInt8.lt_iff_toNat_lt.1 hlt
    rw [List.getElem?_eq_getElem hlt', Option.join_some]
    exact List.getElem_mem hlt'

theorem mem_endpoints_iff {slot : Option Endpoint} :
    slot ∈ i.endpoints ↔ ∃ index < i.descriptor.bNumEndpoints, slot = i.getEndpointByIdx index := by
  rw [mem_iff_lookup i.endpoints_length]
  refine exists_congr fun index => and_congr_right fun hlt => ?_
  unfold Interface.getEndpointByIdx
  rw [if_neg (UInt8.not_le.2 hlt)]

theorem mem_alternates_iff {slot : Option Interface} :
    slot ∈ g.alternates ↔ ∃ alternate < g.alternateCount, slot = g.getInterface alternate := by
  have hlen : g.alternates.length = g.alternateCount.toNat :=
    List.length_take_of_le g.count_le
  rw [mem_iff_lookup hlen]
  refine exists_congr fun alternate => and_congr_right fun hlt => ?_
  unfold InterfaceGroup.getInterface InterfaceGroup.alternates
  rw [if_neg (UInt8.not_le.2 hlt), List.getElem?_take_of_lt (UInt8.lt_iff_toNat_lt.1 hlt)]

theorem mem_interfaceGroups_iff {slot : Option InterfaceGroup} :
    slot ∈ c.interfaceGroups ↔ ∃ number < c.descriptor.bNumInterfaces, slot = c.group number := by
  rw [mem_iff_lookup c.groups_length]
  refine exists_congr fun number => and_congr_right fun hlt => ?_
  unfold Configuration.group
  rw [if_neg (UInt8.not_le.2 hlt)]

theorem getInterfaceAlternateCount_of_group {number : Byte} (h : c.group number = some g) :
    c.getInterfaceAlternateCount number = g.alternateCount := by
  unfold Configuration.group at h
  split_ifs at h
  unfold Configuration.getInterfaceAlternateCount
  rw [h]
  rfl

theorem exists_group {number alternate : Byte} (hn : number < c.descriptor.bNumInterfaces)
    (ha : alternate < c.getInterfaceAlternateCount number) : ∃ g, c.group number = some g := by
  unfold Configuration.group
  rw [if_neg (UInt8.not_le.2 hn)]
  unfold Configuration.getInterfaceAlternateCount at ha
  cases hg : (c.interfaceGroups[number.toNat]?).join with
  | none =>
    rw [hg] at ha
    exact absurd (UInt8.lt_iff_toNat_lt.1 ha) (Nat.not_lt_zero _)
  | some g => exact ⟨g, rfl⟩

/-- The loops meet a null object exactly when an alternate setting or an endpoint of one is null. -/
theorem none_mem_endpointSlots : none ∈ c.endpointSlots ↔
    ∃ g, some g ∈ c.interfaceGroups ∧ ∃ slot ∈ g.alternates,
      ∀ i, slot = some i → none ∈ i.endpoints := by
  unfold Configuration.endpointSlots
  simp only [List.mem_flatMap, mem_indices]
  constructor
  · rintro ⟨number, hn, alternate, ha, hmem⟩
    obtain ⟨g, hg⟩ := exists_group hn ha
    rw [getInterfaceAlternateCount_of_group hg] at ha
    refine ⟨g, mem_interfaceGroups_iff.2 ⟨number, hn, hg.symm⟩, g.getInterface alternate,
      mem_alternates_iff.2 ⟨alternate, ha, rfl⟩, fun i hi => ?_⟩
    have hat : c.getInterfaceAlternate number alternate = some i := by
      unfold Configuration.getInterfaceAlternate
      rw [hg]
      exact hi
    simp only [hat, List.mem_map, mem_indices, Option.map_eq_none_iff] at hmem
    obtain ⟨index, hidx, hnone⟩ := hmem
    exact mem_endpoints_iff.2 ⟨index, hidx, hnone.symm⟩
  · rintro ⟨g, hg, slot, hslot, hnull⟩
    obtain ⟨number, hn, hg⟩ := mem_interfaceGroups_iff.1 hg
    obtain ⟨alternate, ha, rfl⟩ := mem_alternates_iff.1 hslot
    refine ⟨number, hn, alternate, by rwa [getInterfaceAlternateCount_of_group hg.symm], ?_⟩
    have hat : c.getInterfaceAlternate number alternate = g.getInterface alternate := by
      unfold Configuration.getInterfaceAlternate
      rw [← hg]
      rfl
    cases hi : g.getInterface alternate with
    | none => simp [hat, hi]
    | some i =>
      obtain ⟨index, hidx, hnone⟩ := mem_endpoints_iff.1 (hnull i hi)
      simp only [hat, hi, List.mem_map, mem_indices, Option.map_eq_none_iff]
      exact ⟨index, hidx, hnone.symm⟩

end Lookups

end UsbProxy
