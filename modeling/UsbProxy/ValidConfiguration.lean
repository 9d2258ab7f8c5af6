import UsbProxy.Configuration

/-!
# What a valid configuration looks like

The validators walk arrays of groups, interfaces and endpoints from index 0 on; the lookups find the same
objects by interface number, alternate setting and endpoint index.  A configuration that passes has its
interfaces laid out so that both see the same.
-/

namespace UsbProxy

/-- The reserved bits of the address of a defined endpoint are clear. -/
theorem Endpoint.address_of_isDefined {ep : Endpoint} {configId interfaceNum interfaceAlternate : Byte}
    (h : (ep.isDefined configId interfaceNum interfaceAlternate).error = .none) :
    ep.descriptor.bEndpointAddress &&& 0x70 = 0 := by
  obtain ⟨hl, ht⟩ := isDefined_ok h
  by_contra haddress
  unfold isDefined at h
  simp [hl, ht, haddress] at h

/-- Every index below `bNumEndpoints` finds an endpoint, with the reserved bits of its address clear. -/
def Interface.EndpointsDefined (i : Interface) : Prop :=
  ∀ index < i.descriptor.bNumEndpoints, ∃ ep, i.getEndpointByIdx index = some ep ∧
    ep.descriptor.bEndpointAddress &&& 0x70 = 0

theorem Interface.endpointsDefined {i : Interface} {configId interfaceNum : Byte}
    (h : (i.isDefined configId interfaceNum).error = .none) : i.EndpointsDefined := by
  obtain ⟨hl, ht, -⟩ := isDefined_ok h
  unfold isDefined at h
  simp only [if_neg (not_not.2 hl), if_neg (not_not.2 ht)] at h
  obtain ⟨eps, heps, hok⟩ := DefinitionError.checkEach_ok (by simp) h
  intro index hindex
  have hlt : index.toNat < eps.length := by
    have hlength := i.endpoints_length
    rw [heps, List.length_map] at hlength
    exact hlength ▸ UInt8.lt_iff_toNat_lt.1 hindex
  refine ⟨eps[index.toNat], ?_, Endpoint.address_of_isDefined (hok _ hlt)⟩
  unfold getEndpointByIdx
  rw [if_neg (UInt8.not_le.2 hindex), heps, List.getElem?_map, List.getElem?_eq_getElem hlt]
  rfl

/-! ## Groups -/

/-- The alternate settings of a group are `interfaces`, in order and without a gap. -/
structure InterfaceGroup.Layout (g : InterfaceGroup) (interfaces : List Interface) : Prop where
  alternates : g.alternates = interfaces.map some
  ne_nil : interfaces ≠ []
  count : g.alternateCount.toNat = interfaces.length
  placed : ∀ k (hk : k < interfaces.length), interfaces[k].descriptor.bInterfaceNumber = g.number ∧
    interfaces[k].descriptor.bAlternateSetting.toNat = k
  endpoints : ∀ i ∈ interfaces, i.EndpointsDefined

namespace InterfaceGroup

variable {g : InterfaceGroup} {interfaces : List Interface}

theorem layout_of_isDefined {configId : Byte} (h : (g.isDefined configId).error = .none) :
    ∃ interfaces, g.Layout interfaces := by
  obtain ⟨is, -, halternates, hne, his⟩ := isDefined_ok h
  have hcount : g.alternateCount.toNat = is.length := by
    have hlength : g.alternates.length = g.alternateCount.toNat := List.length_take_of_le g.count_le
    rw [← hlength, halternates, List.length_map]
  refine ⟨is, halternates, hne, hcount, fun k hk => ⟨(his k hk).1, (his k hk).2.1⟩, fun i hi => ?_⟩
  obtain ⟨k, hk, rfl⟩ := List.getElem_of_mem hi
  exact Interface.endpointsDefined (his k hk).2.2

theorem Layout.getInterface (h : g.Layout interfaces) {alternate : Byte}
    (ha : alternate.toNat < interfaces.length) :
    g.getInterface alternate = some interfaces[alternate.toNat] := by
  have hlt : alternate < g.alternateCount := UInt8.lt_iff_toNat_lt.2 (h.count ▸ ha)
  have htake : g.alternates[alternate.toNat]? = g.interfaces[alternate.toNat]? :=
    List.getElem?_take_of_lt (UInt8.lt_iff_toNat_lt.1 hlt)
  unfold InterfaceGroup.getInterface
  rw [if_neg (UInt8.not_le.2 hlt), ← htake, h.alternates, List.getElem?_map,
    List.getElem?_eq_getElem ha]
  rfl

end InterfaceGroup

/-! ## Configurations -/

def Configuration.interfaces (c : Configuration) : List Interface :=
  c.interfaceGroups.reduceOption.flatMap fun g => g.alternates.reduceOption

/-- The groups are full, in the order of their numbers and laid out themselves; `rows` has each with its
interfaces. -/
structure Configuration.Layout (c : Configuration) (rows : List (InterfaceGroup × List Interface)) :
    Prop where
  groups_eq : c.interfaceGroups = rows.map fun row => some row.1
  number : ∀ j (hj : j < rows.length), rows[j].1.number.toNat = j
  group : ∀ row ∈ rows, row.1.Layout row.2

namespace Configuration

variable {c : Configuration} {rows : List (InterfaceGroup × List Interface)}

theorem layout_of_isDefined {highSpeed : Bool} (h : (c.isDefined highSpeed).error = .none) :
    ∃ rows, c.Layout rows := by
  obtain ⟨-, -, groups, hgroups, hok⟩ := isDefined_ok h
  have hlayout : ∀ g ∈ groups, ∃ interfaces, g.Layout interfaces := by
    intro g hg
    obtain ⟨n, hn, rfl⟩ := List.getElem_of_mem hg
    obtain ⟨-, configId, hdefined⟩ := hok n hn
    exact InterfaceGroup.layout_of_isDefined hdefined
  choose! interfaces hinterfaces using hlayout
  refine ⟨groups.map fun g => (g, interfaces g), ?_, fun j hj => ?_, fun row hrow => ?_⟩
  · rw [hgroups, List.map_map]
    rfl
  · rw [List.getElem_map]
    exact (hok j (by simpa using hj)).1
  · obtain ⟨g, hg, rfl⟩ := List.mem_map.1 hrow
    exact hinterfaces g hg

theorem Layout.length_rows (h : c.Layout rows) : rows.length = c.descriptor.bNumInterfaces.toNat := by
  rw [← c.groups_length, h.groups_eq, List.length_map]

theorem Layout.interfaces_eq (h : c.Layout rows) : c.interfaces = rows.flatMap Prod.snd := by
  have hmap : rows.map (fun row => row.1.alternates.reduceOption) = rows.map Prod.snd := by
    refine List.map_congr_left fun row hrow => ?_
    rw [(h.group row hrow).alternates, reduceOption_map_some]
  have hgroups : c.interfaceGroups = (rows.map Prod.fst).map some := by
    rw [h.groups_eq, List.map_map]
    rfl
  unfold Configuration.interfaces
  rw [hgroups, reduceOption_map_some, List.flatMap_map, List.flatMap_def, List.flatMap_def, hmap]

section Lookups

variable {number alternate : Byte}

theorem Layout.number_lt (h : c.Layout rows) (hn : number.toNat < rows.length) :
    number < c.descriptor.bNumInterfaces := UInt8.lt_iff_toNat_lt.2 (h.length_rows ▸ hn)

theorem Layout.slot_eq (h : c.Layout rows) (hn : number.toNat < rows.length) :
    (c.interfaceGroups[number.toNat]?).join = some rows[number.toNat].1 := by
  rw [h.groups_eq, List.getElem?_map, List.getElem?_eq_getElem hn]
  rfl

theorem Layout.getInterfaceAlternateCount (h : c.Layout rows) (hn : number.toNat < rows.length) :
    (c.getInterfaceAlternateCount number).toNat = rows[number.toNat].2.length := by
  unfold Configuration.getInterfaceAlternateCount
  rw [h.slot_eq hn]
  exact (h.group _ (List.getElem_mem hn)).count

theorem Layout.getInterfaceAlternate (h : c.Layout rows) (hn : number.toNat < rows.length)
    (ha : alternate.toNat < rows[number.toNat].2.length) :
    c.getInterfaceAlternate number alternate = some rows[number.toNat].2[alternate.toNat] := by
  unfold Configuration.getInterfaceAlternate Configuration.group
  rw [if_neg (UInt8.not_le.2 (h.number_lt hn)), h.slot_eq hn]
  exact (h.group _ (List.getElem_mem hn)).getInterface ha

end Lookups

/-- **Every interface number of a configuration that passes has an alternate setting; every alternate
setting below the count is found, with its number and its place; and so are its endpoints.** -/
theorem interfaces_of_isDefined {highSpeed : Bool} (h : (c.isDefined highSpeed).error = .none)
    (number : Byte) (hn : number < c.descriptor.bNumInterfaces) :
    0 < c.getInterfaceAlternateCount number ∧
      ∀ a < c.getInterfaceAlternateCount number, ∃ i, c.getInterfaceAlternate number a = some i ∧
        i.descriptor.bInterfaceNumber = number ∧ i.descriptor.bAlternateSetting = a ∧
        i.EndpointsDefined := by
  obtain ⟨rows, hlayout⟩ := layout_of_isDefined h
  have hlt : number.toNat < rows.length := hlayout.length_rows ▸ UInt8.lt_iff_toNat_lt.1 hn
  have hgroup := hlayout.group _ (List.getElem_mem hlt)
  have hcount := hlayout.getInterfaceAlternateCount hlt
  refine ⟨UInt8.lt_iff_toNat_lt.2 (hcount ▸ List.length_pos_iff.2 hgroup.ne_nil), fun a ha => ?_⟩
  have halt : a.toNat < rows[number.toNat].2.length := hcount ▸ UInt8.lt_iff_toNat_lt.1 ha
  obtain ⟨hnumber, hplace⟩ := hgroup.placed _ halt
  refine ⟨_, hlayout.getInterfaceAlternate hlt halt, ?_, UInt8.toNat_inj.1 hplace,
    hgroup.endpoints _ (List.getElem_mem halt)⟩
  rw [hnumber]
  exact UInt8.toNat_inj.1 (hlayout.number _ hlt)

end Configuration

end UsbProxy
