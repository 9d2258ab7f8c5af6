import Mathlib.Data.List.TakeWhile
import UsbProxy.Library.Slots
import UsbProxy.ParserIndices
import UsbProxy.RoundTrip

/-!
# Where a section goes

The interface sections of a chain may come in any order.  `parsed_sections`: each ends up at its own
interface number and alternate setting, whole, and everywhere else there is nothing.
-/

namespace UsbProxy

open Records Iteration Slots

/-! ## A chain as leading descriptors and sections -/

theorem bytes_interfaceDescriptor {r : Record} (h9 : r.size = 9) :
    (interfaceDescriptor r).bytes = r.bytes := by
  obtain ⟨bytes, hlen⟩ := r
  have hnine : bytes.length = 9 := by
    rw [hlen]
    exact congrArg UInt8.toNat h9
  match bytes, hnine with
  | [b0, b1, b2, b3, b4, b5, b6, b7, b8], _ =>
    obtain rfl : b0 = 9 := h9
    rfl

theorem head_interfaceDescriptor {r : Record} (h9 : r.size = 9) (rest : List Record) :
    Section.head ⟨interfaceDescriptor r, rest⟩ = r := by
  have hlength : (interfaceDescriptor r).bLength = 9 := by
    have h := congrArg (fun l : List Byte => l.headD 0) (bytes_interfaceDescriptor h9)
    exact h.trans h9
  exact Record.ext ((Section.bytes_head hlength).trans (bytes_interfaceDescriptor h9))

theorem Tiled.eq_sections {rs : List Record} (ht : Tiled rs) :
    rs = untilInterface rs ++ (sectionsOf rs).flatMap Section.records := by
  induction rs with
  | nil => rfl
  | cons r rs ih =>
    have hrest := ih fun x hx => ht x (List.mem_cons_of_mem r hx)
    by_cases htag : r.tag = USB_DT_INTERFACE
    · rw [untilInterface_interface htag, sectionsOf_interface htag, List.nil_append, List.flatMap_cons,
        Section.records, head_interfaceDescriptor ((ht r List.mem_cons_self).2 htag), List.cons_append,
        ← hrest]
    · rw [untilInterface_inner htag, sectionsOf_inner htag, List.cons_append, ← hrest]

theorem Tiled.inner {rs : List Record} (ht : Tiled rs) : ∀ r ∈ untilInterface rs, Inner r := by
  intro r hr
  have htag : r.tag ≠ USB_DT_INTERFACE := by simpa using List.mem_takeWhile_imp hr
  exact ⟨(ht r (List.takeWhile_subset _ hr)).1, htag⟩

theorem Tiled.section {rs : List Record} (ht : Tiled rs) : ∀ sec ∈ sectionsOf rs,
    sec.descriptor.bLength = 9 ∧ sec.descriptor.bDescriptorType = USB_DT_INTERFACE ∧
      ∀ r ∈ sec.rest, Inner r := by
  induction rs with
  | nil => simp [sectionsOf]
  | cons r rs ih =>
    have htail : Tiled rs := fun x hx => ht x (List.mem_cons_of_mem r hx)
    by_cases htag : r.tag = USB_DT_INTERFACE
    · rw [sectionsOf_interface htag, List.forall_mem_cons]
      have h9 := (ht r List.mem_cons_self).2 htag
      have hbytes := bytes_interfaceDescriptor h9
      refine ⟨⟨?_, ?_, htail.inner⟩, ih htail⟩
      · exact (congrArg (fun l : List Byte => l.headD 0) hbytes).trans h9
      · exact (congrArg (fun l : List Byte => l.getD 1 0) hbytes).trans htag
    · rw [sectionsOf_inner htag]
      exact ih htail

/-! ## The interface at a number and an alternate setting -/

theorem InterfaceGroup.getInterface_eq {g : InterfaceGroup} (h : g.interfaces.length ≤ 255)
    (alternate : Byte) : g.getInterface alternate = slot g.interfaces alternate.toNat := by
  have hcount := toNat_alternateCount h
  unfold getInterface
  by_cases hle : g.alternateCount ≤ alternate
  · rw [if_pos hle, slot_eq_none_of_le]
    rw [← hcount]
    exact UInt8.le_iff_toNat_le.1 hle
  · rw [if_neg hle]
    rfl

theorem InterfaceGroup.interfaces_addInterface_eq {g : InterfaceGroup} (h : g.interfaces.length ≤ 255)
    (i : Interface) : (g.addInterface i).interfaces =
      put g.interfaces i.descriptor.bAlternateSetting.toNat i := by
  have hcount := toNat_alternateCount h
  unfold addInterface put
  by_cases hle : g.alternateCount ≤ i.descriptor.bAlternateSetting
  · have hge := UInt8.le_iff_toNat_le.1 hle
    rw [if_neg (by omega)]
    simp only [dif_pos hle, hcount, List.take_length]
  · have hlt := UInt8.lt_iff_toNat_lt.1 (UInt8.not_le.1 hle)
    rw [if_pos (by omega)]
    simp only [dif_neg hle]

/-- Interface number and alternate setting. -/
def UsbInterfaceDescriptor.place (d : UsbInterfaceDescriptor) : Byte × Byte :=
  (d.bInterfaceNumber, d.bAlternateSetting)

def Interface.place (i : Interface) : Byte × Byte := i.descriptor.place

/-- The object can be stored and its group's counter does not wrap. -/
def Interface.Stores (bNumInterfaces : Byte) (i : Interface) : Prop :=
  i.descriptor.bInterfaceNumber < bNumInterfaces ∧ i.descriptor.bAlternateSetting.toNat < 255

namespace Configuration

/-- `get_interface_alternate` at a place. -/
def alternateAt (c : Configuration) (place : Byte × Byte) : Option Interface :=
  c.getInterfaceAlternate place.1 place.2

/-- No counter of a group has wrapped. -/
structure Roomy (bNumInterfaces : Byte) (c : Configuration) : Prop where
  bNumInterfaces : c.descriptor.bNumInterfaces = bNumInterfaces
  groups : ∀ g, some g ∈ c.interfaceGroups → g.interfaces.length ≤ 255

variable {c : Configuration} {i : Interface} {n : Byte}

theorem roomy_new (d : UsbConfigDescriptor) : Roomy d.bNumInterfaces (new d) where
  bNumInterfaces := rfl
  groups g hg := by simp [new] at hg

theorem group_addInterface (hi : i.descriptor.bInterfaceNumber < c.descriptor.bNumInterfaces)
    (number : Byte) : (c.addInterface i).group number =
      if number = i.descriptor.bInterfaceNumber then
        some (((c.group number).getD (.new number)).addInterface i)
      else c.group number := by
  unfold group addInterface
  by_cases hn : c.descriptor.bNumInterfaces ≤ number
  · have hne : number ≠ i.descriptor.bInterfaceNumber := by
      rintro rfl
      exact UInt8.not_le.2 hi hn
    simp only [if_pos hn, if_neg hne]
  · simp only [if_neg hn, List.getElem?_modify]
    by_cases heq : number = i.descriptor.bInterfaceNumber
    · subst heq
      have hlt : i.descriptor.bInterfaceNumber.toNat < c.interfaceGroups.length := by
        rw [c.groups_length]
        exact UInt8.lt_iff_toNat_lt.1 hi
      simp [List.getElem?_eq_getElem hlt]
    · have hne : ¬ i.descriptor.bInterfaceNumber.toNat = number.toNat := fun h =>
        heq (UInt8.toNat_inj.1 h).symm
      simp [heq, hne]

theorem Roomy.group (h : Roomy n c) {number : Byte} {g : InterfaceGroup}
    (hg : c.group number = some g) : g.interfaces.length ≤ 255 := by
  unfold Configuration.group at hg
  split_ifs at hg
  obtain ⟨x, hx, rfl⟩ : ∃ x, c.interfaceGroups[number.toNat]? = some x ∧ x = some g := by
    simpa [Option.join_eq_some_iff] using hg
  exact h.groups g (List.mem_of_getElem? hx)

theorem length_addInterface {g : InterfaceGroup} (hg : g.interfaces.length ≤ 255)
    (hi : i.descriptor.bAlternateSetting.toNat < 255) :
    (g.addInterface i).interfaces.length ≤ 255 := by
  rw [InterfaceGroup.interfaces_addInterface_eq hg, length_put]
  omega

theorem getInterface_addInterface {g : InterfaceGroup} (hg : g.interfaces.length ≤ 255)
    (hi : i.descriptor.bAlternateSetting.toNat < 255) (alternate : Byte) :
    (g.addInterface i).getInterface alternate =
      if alternate = i.descriptor.bAlternateSetting then some i else g.getInterface alternate := by
  rw [InterfaceGroup.getInterface_eq (length_addInterface hg hi),
    InterfaceGroup.interfaces_addInterface_eq hg, slot_put, InterfaceGroup.getInterface_eq hg]
  exact if_congr UInt8.toNat_inj rfl rfl

theorem roomy_addInterface (hc : Roomy n c) (hi : i.Stores n) : Roomy n (c.addInterface i) where
  bNumInterfaces := hc.bNumInterfaces
  groups g hg := by
    obtain ⟨k, hk⟩ := List.getElem?_of_mem hg
    unfold addInterface at hk
    rw [List.getElem?_modify] at hk
    by_cases heq : i.descriptor.bInterfaceNumber.toNat = k
    · obtain ⟨x, hx, hsome⟩ := Option.map_eq_some_iff.1 hk
      rw [if_pos heq] at hsome
      obtain rfl := Option.some.inj hsome
      apply length_addInterface _ hi.2
      cases x with
      | none => exact Nat.zero_le _
      | some g' => exact hc.groups g' (List.mem_of_getElem? hx)
    · simp only [if_neg heq, Option.map_eq_map, Option.map_id'] at hk
      exact hc.groups g (List.mem_of_getElem? hk)

/-- Storing an interface changes what stands at its place, and nothing else. -/
theorem alternateAt_addInterface (hc : Roomy n c) (hi : i.Stores n) (place : Byte × Byte) :
    (c.addInterface i).alternateAt place = if place = i.place then some i else c.alternateAt place := by
  obtain ⟨number, alternate⟩ := place
  have hplace : (number, alternate) = i.place ↔
      number = i.descriptor.bInterfaceNumber ∧ alternate = i.descriptor.bAlternateSetting :=
    Iff.of_eq (Prod.mk.injEq ..)
  unfold alternateAt getInterfaceAlternate
  rw [group_addInterface (hc.bNumInterfaces ▸ hi.1)]
  by_cases hnum : number = i.descriptor.bInterfaceNumber
  · have hlen : ((c.group number).getD (.new number)).interfaces.length ≤ 255 := by
      cases hg : c.group number with
      | none => exact Nat.zero_le _
      | some g => exact hc.group hg
    rw [if_pos hnum, Option.bind_some, getInterface_addInterface hlen hi.2]
    refine if_congr (by rw [hplace, and_iff_right hnum]) rfl ?_
    cases hg : c.group number with
    | none =>
      rw [Option.getD_none, Option.bind_none, InterfaceGroup.getInterface_eq (Nat.zero_le _)]
      rfl
    | some g => rfl
  · rw [if_neg hnum, if_neg (fun h => hnum (hplace.1 h).1)]

theorem getInterfaceAlternate_new (d : UsbConfigDescriptor) (number alternate : Byte) :
    (new d).getInterfaceAlternate number alternate = none := by
  have hgroup : (new d).group number = none := by
    unfold group new
    simp only [List.getElem?_replicate]
    split_ifs <;> rfl
  unfold getInterfaceAlternate
  rw [hgroup, Option.bind_none]

/-- Interfaces for different places are all found, and there is nothing else. -/
theorem alternateAt_foldl (d : UsbConfigDescriptor) {is : List Interface}
    (hstores : ∀ i ∈ is, i.Stores d.bNumInterfaces) (hdistinct : (is.map Interface.place).Nodup) :
    (∀ i ∈ is, (is.foldl addInterface (new d)).alternateAt i.place = some i) ∧
      ∀ place ∉ is.map Interface.place, (is.foldl addInterface (new d)).alternateAt place = none := by
  have hget : ∀ (c : Configuration) (i : Interface) (place : Byte × Byte),
      Roomy d.bNumInterfaces c → i.Stores d.bNumInterfaces →
        (c.addInterface i).alternateAt place = if place = i.place then some i else c.alternateAt place :=
    fun _ _ place hc hi => alternateAt_addInterface hc hi place
  have hlast := foldl_put_last (fun _ _ => roomy_addInterface) hget (roomy_new d) hstores
  refine ⟨fun i hi => ?_, fun place hplace => ?_⟩
  · rw [hlast, Upserts.last_of_nodup hdistinct hi, Option.some_or]
  · rw [hlast, Upserts.last_eq_none_iff.2 hplace, Option.none_or]
    exact getInterfaceAlternate_new d place.1 place.2

theorem filled_of_getInterfaceAlternate {number alternate : Byte}
    (h : c.getInterfaceAlternate number alternate = some i) : c.Filled number.toNat := by
  unfold getInterfaceAlternate group at h
  split_ifs at h
  · cases h
  · obtain ⟨g, hg, -⟩ := Option.bind_eq_some_iff.1 h
    exact ⟨g, Option.join_eq_some_iff.1 hg⟩

/-- The active alternate settings do not matter to a lookup of a given one. -/
theorem getInterfaceAlternate_congr {c' : Configuration} {gs gs' : List InterfaceGroup}
    (hd : c'.descriptor = c.descriptor) (hc : c.interfaceGroups = gs.map some)
    (hc' : c'.interfaceGroups = gs'.map some)
    (h : gs'.map InterfaceGroup.interfaces = gs.map InterfaceGroup.interfaces)
    (number alternate : Byte) :
    c'.getInterfaceAlternate number alternate = c.getInterfaceAlternate number alternate := by
  have hk : gs'[number.toNat]?.map InterfaceGroup.interfaces =
      gs[number.toNat]?.map InterfaceGroup.interfaces := by
    rw [← List.getElem?_map, h, List.getElem?_map]
  have hget : ∀ {g g' : InterfaceGroup}, g'.interfaces = g.interfaces →
      g'.getInterface alternate = g.getInterface alternate := by
    intro g g' h
    unfold InterfaceGroup.getInterface
    rw [g.count_eq, g'.count_eq, h]
  unfold getInterfaceAlternate group
  rw [hd, hc, hc', List.getElem?_map, List.getElem?_map]
  by_cases hn : c.descriptor.bNumInterfaces ≤ number
  · rw [if_pos hn, if_pos hn]
  · rw [if_neg hn, if_neg hn]
    cases hg : gs[number.toNat]? with
    | none =>
      rw [hg, Option.map_none, Option.map_eq_none_iff] at hk
      rw [hk]
    | some g =>
      rw [hg, Option.map_some, Option.map_eq_some_iff] at hk
      obtain ⟨g', hg', heq⟩ := hk
      rw [hg']
      exact hget heq

theorem exists_map_some {α : Type*} {l : List (Option α)} (h : none ∉ l) :
    ∃ as : List α, l = as.map some := by
  induction l with
  | nil => exact ⟨[], rfl⟩
  | cons x l ih =>
    rw [List.mem_cons, not_or] at h
    obtain ⟨as, rfl⟩ := ih h.2
    obtain ⟨a, rfl⟩ := Option.ne_none_iff_exists'.1 (Ne.symm h.1)
    exact ⟨a :: as, rfl⟩

/-- With no group missing it makes an object that looks up as the walk has stored. -/
theorem exists_finish {proxy : DeviceProxy} {idx : UInt16} {otherSpeed : Bool} {bytes : List Byte}
    (hserve : Serves proxy idx otherSpeed bytes) (uninit : Byte) (p : ℕ)
    (hgroups : none ∉ c.interfaceGroups) :
    ∃ cfg, finish proxy uninit { loop := .done, p, configuration := c } = .ok cfg ∧
      cfg.descriptor = c.descriptor ∧
      ∀ number alternate, cfg.getInterfaceAlternate number alternate = c.alternateAt (number, alternate) := by
  obtain ⟨gs, hgs⟩ := exists_map_some hgroups
  obtain ⟨cfg, gs', hfinish, hheader, hgs', hinterfaces, -⟩ := finish_ok hserve uninit p hgs
  exact ⟨cfg, hfinish, hheader, getInterfaceAlternate_congr hheader hgs hgs' hinterfaces⟩

end Configuration

/-! ## The constructor on a chain -/

/-- The descriptors in front of the first interface descriptor. -/
def Chain.leading (c : Chain) : List Record := untilInterface c.records

/-- Every interface number below `bNumInterfaces` and no other, no place twice, no counter that wraps,
and sections an object can hold whole, the descriptors of `leading` counted with the first one. -/
structure Chain.Wellformed (c : Chain) : Prop where
  wTotalLength : c.header.wTotalLength.toNat = c.bytes.length
  bNumInterfaces : 1 ≤ c.header.bNumInterfaces.toNat
  number : ∀ sec ∈ c.sections, sec.descriptor.bInterfaceNumber < c.header.bNumInterfaces
  complete : ∀ k < c.header.bNumInterfaces.toNat,
    ∃ sec ∈ c.sections, sec.descriptor.bInterfaceNumber.toNat = k
  distinct : (c.sections.map fun sec => sec.descriptor.place).Nodup
  alternate : ∀ sec ∈ c.sections, sec.descriptor.bAlternateSetting.toNat < 255
  fits : ∀ x ∈ withLeading c.leading c.sections, Fits x.1 x.2.descriptor x.2.rest

namespace Chain.Wellformed

variable {c : Chain} {proxy : DeviceProxy} {idx : UInt16} {otherSpeed : Bool}

theorem sections_valid (h : c.Wellformed) : ∀ sec ∈ c.sections, sec.Valid := by
  intro sec hsec
  obtain ⟨hlength, htype, hrest⟩ := c.tiled.section sec hsec
  obtain ⟨x, hx, rfl⟩ : ∃ x ∈ withLeading c.leading c.sections, x.2 = sec := by
    rw [← map_snd_withLeading c.leading c.sections] at hsec
    exact List.mem_map.1 hsec
  have hfit := h.fits x hx
  exact ⟨hlength, htype, hrest, hfit.endpoints, fun r hr => .inl (hfit.endpoint_size r hr), hfit.hid⟩

theorem sections_ne_nil (h : c.Wellformed) : c.sections ≠ [] := by
  obtain ⟨sec, hsec, -⟩ := h.complete 0 (by have := h.bNumInterfaces; omega)
  exact List.ne_nil_of_mem hsec

theorem bytes_eq (c : Chain) :
    c.bytes = c.header.bytes ++ layout (c.leading ++ c.sections.flatMap Section.records) :=
  congrArg (fun rs => c.header.bytes ++ layout rs) c.tiled.eq_sections

end Chain.Wellformed

theorem exists_filed {xs : List (List Record × Section)} {is : List Interface}
    (h : List.Forall₂ (fun x i => Filed x.1 x.2 i) xs is) :
    ∀ x ∈ xs, ∃ i ∈ is, Filed x.1 x.2 i := by
  induction h with
  | nil => simp
  | cons hx _ ih =>
    rw [List.forall_mem_cons]
    refine ⟨⟨_, List.mem_cons_self, hx⟩, fun x hx => ?_⟩
    obtain ⟨i, hi, hfiled⟩ := ih x hx
    exact ⟨i, List.mem_cons_of_mem _ hi, hfiled⟩

/-- **Every section goes to its own place.**  Parsing a well-formed chain ends, and then the interface
at the number and alternate setting of a section holds exactly that section: its descriptor, its
endpoints, its HID descriptor and its other descriptors, those in front of the first interface
descriptor with the first section's; at every other place there is none. -/
theorem parsed_sections {c : Chain} (h : c.Wellformed) {proxy : DeviceProxy} {idx : UInt16}
    {otherSpeed : Bool} (hserve : Serves proxy idx otherSpeed c.bytes) (uninit : Uninit) :
    ∃ cfg fuel₀, (∀ fuel ≥ fuel₀,
        Configuration.ofDevice proxy uninit idx otherSpeed fuel = .ok cfg) ∧
      cfg.descriptor = c.header ∧
      (∀ x ∈ withLeading c.leading c.sections, ∃ i,
        cfg.getInterfaceAlternate x.2.descriptor.bInterfaceNumber x.2.descriptor.bAlternateSetting =
          some i ∧ Filed x.1 x.2 i) ∧
      ∀ number alternate, (number, alternate) ∉ c.sections.map (fun sec => sec.descriptor.place) →
        cfg.getInterfaceAlternate number alternate = none := by
  have hlead : ∀ r ∈ c.leading, Inner r := c.tiled.inner
  have hrow := Parser.after_row c.header hlead (fun hnil => absurd hnil h.sections_ne_nil)
    h.sections_valid h.fits uninit.buffer uninit.object
  rw [← Chain.Wellformed.bytes_eq] at hrow
  obtain ⟨is, his, n₀, hn₀⟩ := hrow
  have hdesc : is.map Interface.descriptor = c.sections.map Section.descriptor := by
    rw [map_descriptor_of_filed his, map_snd_withLeading]
  have hplaces : is.map Interface.place = c.sections.map fun sec => sec.descriptor.place := by
    have h := congrArg (List.map UsbInterfaceDescriptor.place) hdesc
    rwa [List.map_map, List.map_map] at h
  have hstores : ∀ i ∈ is, i.Stores c.header.bNumInterfaces := by
    intro i hi
    have hmem : i.descriptor ∈ c.sections.map Section.descriptor := hdesc ▸ List.mem_map_of_mem hi
    obtain ⟨sec, hsec, heq⟩ := List.mem_map.1 hmem
    unfold Interface.Stores
    rw [← heq]
    exact ⟨h.number sec hsec, h.alternate sec hsec⟩
  obtain ⟨hstored, hempty⟩ :=
    Configuration.alternateAt_foldl c.header hstores (by rw [hplaces]; exact h.distinct)
  have hgroups : none ∉ (is.foldl Configuration.addInterface (.new c.header)).interfaceGroups := by
    rw [Parser.none_notMem_iff]
    intro k hk
    rw [Configuration.descriptor_foldl is _] at hk
    obtain ⟨sec, hsec, rfl⟩ := h.complete k hk
    have hmem : sec.descriptor ∈ is.map Interface.descriptor := hdesc ▸ List.mem_map_of_mem hsec
    obtain ⟨i, hi, heq⟩ := List.mem_map.1 hmem
    rw [← heq]
    exact Configuration.filled_of_getInterfaceAlternate (hstored i hi)
  obtain ⟨cfg, hfinish, hheader, hlookup⟩ :=
    Configuration.exists_finish hserve uninit.result c.bytes.length hgroups
  refine ⟨cfg, n₀, fun fuel hfuel => ?_, hheader.trans (Configuration.descriptor_foldl is _),
    fun x hx => ?_, fun number alternate hplace => ?_⟩
  · exact ofDevice_of_serves h.wTotalLength hserve (hn₀ fuel hfuel) rfl hfinish
  · obtain ⟨i, hi, hfiled⟩ := exists_filed his x hx
    refine ⟨i, ?_, hfiled⟩
    rw [hlookup, ← hfiled.descriptor]
    exact hstored i hi
  · rw [hlookup]
    exact hempty (number, alternate) (by rw [hplaces]; exact hplace)

/-! ## A chain out of order -/

/-- Interface 1 with an endpoint, then the alternate settings 1 and 0 of interface 0, with an interface
association in front. -/
def unordered : Chain where
  header := ⟨9, 2, 51, 2, 1, 0, 0xa0, 50⟩
  records :=
    [iad, ⟨[9, 4, 1, 0, 1, 8, 6, 0x50, 0], rfl⟩, endpointDescriptor, ⟨[9, 4, 0, 1, 0, 8, 6, 0x50, 0], rfl⟩,
      ⟨[9, 4, 0, 0, 0, 8, 6, 0x50, 0], rfl⟩]
  tiled := by
    unfold Tiled
    decide

theorem unordered_wellformed : unordered.Wellformed where
  wTotalLength := rfl
  bNumInterfaces := by decide
  number := by decide
  complete := by decide
  distinct := by decide
  alternate := by decide
  fits := by
    have hrows : ∀ x ∈ withLeading unordered.leading unordered.sections,
        (ofKind .endpoint x.2.rest).length = x.2.descriptor.bNumEndpoints.toNat ∧
          (∀ r ∈ ofKind .endpoint x.2.rest, r.size = 7) ∧ (ofKind .hid x.2.rest).length ≤ 1 ∧
          x.1.length + (ofKind .other x.2.rest).length ≤ 255 := by decide
    intro x hx
    obtain ⟨hendpoints, hsize, hhid, hothers⟩ := hrows x hx
    exact ⟨hendpoints, hsize, hhid, hothers⟩

/-- The association goes to the first section, interface 1, and alternate setting 1 is found behind
0 though it comes before it. -/
theorem parsed_sections_unordered :
    ∃ cfg fuel₀, (∀ fuel ≥ fuel₀,
        Configuration.ofDevice (.ofBytes unordered.bytes) .zero 0 false fuel = .ok cfg) ∧
      (∃ i, cfg.getInterfaceAlternate 1 0 = some i ∧ i.genericDescriptors.entries = [iad]) ∧
      (∃ i, cfg.getInterfaceAlternate 0 1 = some i ∧ i.descriptor.bAlternateSetting = 1) ∧
      cfg.getInterfaceAlternate 1 1 = none := by
  have hserve : Serves (.ofBytes unordered.bytes) 0 false unordered.bytes :=
    serves_ofBytes (by decide) 0 false
  obtain ⟨cfg, fuel₀, hfuel, -, hsections, hnone⟩ := parsed_sections unordered_wellformed hserve .zero
  refine ⟨cfg, fuel₀, hfuel, ?_, ?_, hnone 1 1 (by decide)⟩
  · obtain ⟨i, hi, hfiled⟩ := hsections
      ((withLeading unordered.leading unordered.sections).head (by decide)) (List.head_mem _)
    exact ⟨i, hi, hfiled.others⟩
  · obtain ⟨i, hi, hfiled⟩ := hsections
      ((withLeading unordered.leading unordered.sections).get ⟨1, by decide⟩) (List.get_mem _ _)
    exact ⟨i, hi, congrArg UsbInterfaceDescriptor.bAlternateSetting hfiled.descriptor⟩

end UsbProxy
