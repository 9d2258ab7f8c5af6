import UsbProxy.RoundTrip

/-!
# Decoding undoes encoding

A configuration object that passes `is_defined` is the object of a valid blob (`Configuration.toBlob`):
its validators say that groups, alternate settings and endpoints stand at their indices, which is what
the walk over the blob recovers them by.
-/

namespace UsbProxy

open Records Iteration

/-! ## The model an object stands for -/

/-- An interface without the bytes behind the seven of an endpoint descriptor. -/
structure InterfaceModel where
  descriptor : UsbInterfaceDescriptor
  hidDescriptor : Option HID
  genericDescriptors : List GenericDescriptor
  endpoints : List (Option (List Byte))

/-- A group without its active alternate setting. -/
structure GroupModel where
  number : Byte
  alternateCount : Byte
  interfaces : List (Option InterfaceModel)

structure ConfigurationModel where
  descriptor : UsbConfigDescriptor
  interfaceGroups : List (Option GroupModel)

def Interface.model (i : Interface) : InterfaceModel :=
  { descriptor := i.descriptor, hidDescriptor := i.hidDescriptor
    genericDescriptors := i.genericDescriptors.entries
    endpoints := i.endpoints.map (Option.map fun ep => ep.descriptor.wire) }

def InterfaceGroup.model (g : InterfaceGroup) : GroupModel :=
  { number := g.number, alternateCount := g.alternateCount
    interfaces := g.interfaces.map (Option.map Interface.model) }

def Configuration.model (c : Configuration) : ConfigurationModel :=
  { descriptor := c.descriptor
    interfaceGroups := c.interfaceGroups.map (Option.map InterfaceGroup.model) }

/-! ## The blob of an object -/

def Interface.toSection (i : Interface) : Section :=
  { descriptor := i.descriptor
    rest := i.hidDescriptor.toList ++ i.genericDescriptors.entries ++
      i.endpoints.reduceOption.map Endpoint.record }

/-- The blob of a configuration that has these interfaces in its groups. -/
def ConfigBlob.ofInterfaces (header : UsbConfigDescriptor) (iss : List (List Interface)) : ConfigBlob :=
  { header, leading := [], groups := iss.map (List.map Interface.toSection) }

/-- The HID descriptor and the other descriptors are what they are filed as. -/
structure Interface.WellFiled (i : Interface) : Prop where
  hid : ∀ hid ∈ i.hidDescriptor, hid.tag = USB_DT_HID ∧ 2 ≤ hid.size.toNat
  others : ∀ d ∈ i.genericDescriptors.entries, 2 ≤ d.size.toNat ∧ d.tag ≠ USB_DT_INTERFACE ∧
    d.tag ≠ USB_DT_ENDPOINT ∧ d.tag ≠ USB_DT_HID

/-- What `is_defined` and the filing say of one interface. -/
structure Interface.Sound (i : Interface) : Prop where
  bLength : i.descriptor.bLength = 9
  bDescriptorType : i.descriptor.bDescriptorType = USB_DT_INTERFACE
  endpoints : ∃ eps : List Endpoint, i.endpoints = eps.map some ∧
    ∀ ep ∈ eps, ep.descriptor.bLength = 7 ∧ ep.descriptor.bDescriptorType = USB_DT_ENDPOINT
  wellFiled : i.WellFiled

namespace Interface

variable {i : Interface}

theorem Sound.reduceOption_endpoints (h : i.Sound) :
    i.endpoints = i.endpoints.reduceOption.map some := by
  obtain ⟨eps, heps, -⟩ := h.endpoints
  rw [heps, reduceOption_map_some]

theorem Sound.bLength_of_mem (h : i.Sound) {ep : Endpoint} (hep : ep ∈ i.endpoints.reduceOption) :
    ep.descriptor.bLength = 7 ∧ ep.descriptor.bDescriptorType = USB_DT_ENDPOINT := by
  obtain ⟨eps, heps, hall⟩ := h.endpoints
  rw [heps, reduceOption_map_some] at hep
  exact hall ep hep

theorem Sound.record_of_mem (h : i.Sound) {r : Record}
    (hr : r ∈ i.endpoints.reduceOption.map Endpoint.record) :
    r.size = 7 ∧ r.tag = USB_DT_ENDPOINT := by
  obtain ⟨ep, hep, rfl⟩ := List.mem_map.1 hr
  obtain ⟨hlen, htype⟩ := h.bLength_of_mem hep
  rw [Record.size, Record.tag, Endpoint.bytes_record, Endpoint.getFullDescriptor_of_seven hlen, ← hlen,
    ← htype]
  exact ⟨rfl, rfl⟩

/-- The parts of a sound interface's section are found by their kinds. -/
theorem Sound.ofKind_rest (h : i.Sound) :
    ofKind .hid i.toSection.rest = i.hidDescriptor.toList ∧
      ofKind .other i.toSection.rest = i.genericDescriptors.entries ∧
      ofKind .endpoint i.toSection.rest = i.endpoints.reduceOption.map Endpoint.record := by
  have hhid : ∀ r ∈ i.hidDescriptor.toList, kind r = .hid := by
    intro r hr
    have htag := (h.wellFiled.hid r (by simpa using hr)).1
    unfold kind
    rw [htag]
    rfl
  have hother : ∀ r ∈ i.genericDescriptors.entries, kind r = .other := by
    intro r hr
    obtain ⟨-, -, hne, hnh⟩ := h.wellFiled.others r hr
    exact (if_neg hne).trans (if_neg hnh)
  have hends : ∀ r ∈ i.endpoints.reduceOption.map Endpoint.record, kind r = .endpoint :=
    fun r hr => if_pos (h.record_of_mem hr).2
  simp only [toSection, ofKind_append]
  rw [ofKind_self hhid, ofKind_self hother, ofKind_self hends,
    ofKind_nil fun r hr => by rw [hother r hr]; decide, ofKind_nil fun r hr => by rw [hends r hr]; decide,
    ofKind_nil fun r hr => by rw [hhid r hr]; decide, ofKind_nil fun r hr => by rw [hends r hr]; decide,
    ofKind_nil fun r hr => by rw [hhid r hr]; decide, ofKind_nil fun r hr => by rw [hother r hr]; decide]
  simp

theorem Sound.valid (h : i.Sound) : i.toSection.Valid := by
  obtain ⟨hhid, -, hends⟩ := h.ofKind_rest
  refine ⟨h.bLength, h.bDescriptorType, fun r hr => ?_, ?_, fun r hr => ?_, ?_⟩
  · simp only [toSection, List.mem_append] at hr
    rcases hr with (hr | hr) | hr
    · obtain ⟨htag, hsize⟩ := h.wellFiled.hid r (by simpa using hr)
      exact ⟨hsize, by rw [htag]; decide⟩
    · obtain ⟨hsize, htag, -⟩ := h.wellFiled.others r hr
      exact ⟨hsize, htag⟩
    · obtain ⟨hsize, htag⟩ := h.record_of_mem hr
      exact ⟨by rw [hsize]; decide, by rw [htag]; decide⟩
  · rw [hends, List.length_map]
    show _ = i.descriptor.bNumEndpoints.toNat
    rw [← i.endpoints_length]
    conv_rhs => rw [h.reduceOption_endpoints]
    rw [List.length_map]
  · rw [hends] at hr
    exact .inl (h.record_of_mem hr).1
  · rw [hhid]
    cases i.hidDescriptor <;> simp

theorem layout_toSection (i : Interface) : layout i.toSection.records = i.getFullDescriptor := by
  unfold toSection Section.records getFullDescriptor
  rw [layout_cons, layout_append, layout_append, layout_map_record]
  simp only [layout, List.append_assoc]
  rfl

theorem map_wire_of_seven {eps : List Endpoint} (h : ∀ ep ∈ eps, ep.descriptor.bLength = 7) :
    eps.map (fun ep => ep.descriptor.wire) = (eps.map Endpoint.record).map Record.bytes := by
  rw [List.map_map]
  apply List.map_congr_left
  intro ep hep
  exact (Endpoint.getFullDescriptor_of_seven (h ep hep)).symm

/-- The object filed from a sound interface's section stands for the same model. -/
theorem Sound.model_of_filed (h : i.Sound) {i' : Interface} (hf : Filed [] i.toSection i') :
    i'.model = i.model := by
  obtain ⟨hhid, hothers, hends⟩ := h.ofKind_rest
  obtain ⟨eps, heps, hrec⟩ := hf.endpoints
  rw [hends] at hrec
  have hid : i'.hidDescriptor = i.hidDescriptor := by
    have := hf.hid.trans hhid
    cases hi : i.hidDescriptor <;> cases hi' : i'.hidDescriptor <;> simp_all
  have hgeneric : i'.genericDescriptors.entries = i.genericDescriptors.entries :=
    hf.others.trans hothers
  -- The filed endpoints have seven bytes too, since their records have.
  have hseven : ∀ ep ∈ eps, ep.descriptor.bLength = 7 := by
    intro ep hep
    have hmem : ep.record ∈ i.endpoints.reduceOption.map Endpoint.record := by
      rw [← hrec]
      exact List.mem_map_of_mem hep
    obtain ⟨ep', hep', heq⟩ := List.mem_map.1 hmem
    have hlen := congrArg (fun r : Record => r.bytes.length) heq
    simp only [Endpoint.bytes_record, Endpoint.length_getFullDescriptor,
      Endpoint.getFullDescriptorLength] at hlen
    rw [(h.bLength_of_mem hep').1] at hlen
    exact UInt8.toNat_inj.1 hlen.symm
  have hwire : eps.map (fun ep => ep.descriptor.wire) =
      i.endpoints.reduceOption.map fun ep => ep.descriptor.wire := by
    rw [map_wire_of_seven hseven, hrec, map_wire_of_seven fun ep hep => (h.bLength_of_mem hep).1]
  have hendpoints : i'.endpoints.map (Option.map fun ep => ep.descriptor.wire) =
      i.endpoints.map (Option.map fun ep => ep.descriptor.wire) := by
    have hsome : ∀ l : List Endpoint, (l.map some).map (Option.map fun ep => ep.descriptor.wire) =
        (l.map fun ep => ep.descriptor.wire).map some := by simp
    rw [heps, h.reduceOption_endpoints, hsome, hsome, hwire]
  unfold model
  rw [hf.descriptor, hid, hgeneric, hendpoints]
  rfl

end Interface

/-! ## The blob of a defined configuration -/

theorem numbered_of_getElem {k : ℕ} {groups : List (List UsbInterfaceDescriptor)}
    (h : ∀ n (hn : n < groups.length), groups[n] ≠ [] ∧ ∀ m (hm : m < groups[n].length),
      groups[n][m].bInterfaceNumber.toNat = k + n ∧ groups[n][m].bAlternateSetting.toNat = m) :
    Numbered k groups := by
  induction groups generalizing k with
  | nil => trivial
  | cons ds groups ih =>
    refine ⟨h 0 (by simp), ih fun n hn => ?_⟩
    rw [Nat.add_assoc, Nat.add_comm 1 n]
    exact h (n + 1) (by simpa using hn)

/-- A configuration whose arrays are full and in order. -/
structure Configuration.Ordered (c : Configuration) (iss : List (List Interface)) : Prop where
  groups : ∃ gs : List InterfaceGroup, c.interfaceGroups = gs.map some ∧
    gs.map InterfaceGroup.interfaces = iss.map (List.map some) ∧
    gs.map (fun g => g.number.toNat) = List.range iss.length
  alternates : ∀ is ∈ iss, is.length ≤ 255
  numbered : Numbered 0 (iss.map (List.map Interface.descriptor))

theorem InterfaceGroup.reduceOption_of_isDefined {g : InterfaceGroup} {configId : Byte}
    (h : (g.isDefined configId).error = .none) :
    g.interfaces = g.interfaces.reduceOption.map some ∧ g.interfaces.reduceOption.length ≤ 255 ∧
      g.interfaces.reduceOption ≠ [] ∧
      ∀ m (hm : m < g.interfaces.reduceOption.length),
        g.interfaces.reduceOption[m].descriptor.bInterfaceNumber = g.number ∧
        g.interfaces.reduceOption[m].descriptor.bAlternateSetting.toNat = m ∧
        (g.interfaces.reduceOption[m].isDefined configId g.number).error = .none := by
  obtain ⟨is, his, halt, hne, hall⟩ := isDefined_ok h
  have hred : g.interfaces.reduceOption = is := by rw [his, reduceOption_map_some]
  rw [hred]
  refine ⟨his, ?_, hne, hall⟩
  have hle : g.alternates.length ≤ g.alternateCount.toNat := List.length_take_le ..
  have hlt := g.alternateCount.toNat_lt
  rw [halt, List.length_map] at hle
  omega

/-- `is_defined` accepts only full arrays in order. -/
theorem Configuration.ordered_of_isDefined {c : Configuration} {highSpeed : Bool}
    (h : (c.isDefined highSpeed).error = .none) :
    ∃ iss, c.Ordered iss ∧ ∀ i ∈ iss.flatten, some i ∈ (c.interfaceGroups.reduceOption.flatMap
      InterfaceGroup.interfaces) ∧ ∃ configId number, (i.isDefined configId number).error = .none := by
  obtain ⟨-, -, gs, hgs, hall⟩ := isDefined_ok h
  have hdef : ∀ g ∈ gs, ∃ configId, (g.isDefined configId).error = .none := by
    intro g hg
    obtain ⟨n, hn, rfl⟩ := List.getElem_of_mem hg
    exact (hall n hn).2
  refine ⟨gs.map fun g => g.interfaces.reduceOption, ⟨⟨gs, hgs, ?_, ?_⟩, ?_, ?_⟩, ?_⟩
  · rw [List.map_map]
    apply List.map_congr_left
    intro g hg
    obtain ⟨configId, hok⟩ := hdef g hg
    exact (InterfaceGroup.reduceOption_of_isDefined hok).1
  · refine List.ext_getElem (by simp) fun n hn _ => ?_
    rw [List.getElem_map, List.getElem_range]
    exact (hall n (by simpa using hn)).1
  · intro is his
    obtain ⟨g, hg, rfl⟩ := List.mem_map.1 his
    obtain ⟨configId, hok⟩ := hdef g hg
    exact (InterfaceGroup.reduceOption_of_isDefined hok).2.1
  · apply numbered_of_getElem
    intro n hn
    obtain ⟨hnum, configId, hok⟩ := hall n (by simpa using hn)
    obtain ⟨-, -, hne, hin⟩ := InterfaceGroup.reduceOption_of_isDefined hok
    simp only [List.getElem_map]
    refine ⟨by simpa using hne, fun m hm => ?_⟩
    obtain ⟨hnumber, halt, -⟩ := hin m (by simpa using hm)
    rw [Nat.zero_add]
    exact ⟨by rw [hnumber, hnum], halt⟩
  · intro i hi
    obtain ⟨is, his, hi⟩ := List.mem_flatten.1 hi
    obtain ⟨g, hg, rfl⟩ := List.mem_map.1 his
    obtain ⟨configId, hok⟩ := hdef g hg
    obtain ⟨hints, -, -, hin⟩ := InterfaceGroup.reduceOption_of_isDefined hok
    have hmem : some i ∈ g.interfaces := by
      rw [hints]
      exact List.mem_map_of_mem hi
    obtain ⟨m, hm, rfl⟩ := List.getElem_of_mem hi
    refine ⟨?_, configId, g.number, (hin m hm).2.2⟩
    rw [hgs, reduceOption_map_some]
    exact List.mem_flatMap.2 ⟨g, hg, hmem⟩

/-- The filing of every interface of a configuration. -/
def Configuration.WellFiled (c : Configuration) : Prop :=
  ∀ i, some i ∈ c.interfaceGroups.reduceOption.flatMap InterfaceGroup.interfaces → i.WellFiled

theorem Interface.sound_of_isDefined {i : Interface} {configId number : Byte}
    (h : (i.isDefined configId number).error = .none) (hf : i.WellFiled) : i.Sound := by
  obtain ⟨hlen, htype, hends⟩ := isDefined_ok h
  exact ⟨hlen, htype, hends, hf⟩

section OfInterfaces

variable {c : Configuration} {iss : List (List Interface)}

theorem sections_ofInterfaces (header : UsbConfigDescriptor) (iss : List (List Interface)) :
    (ConfigBlob.ofInterfaces header iss).sections = iss.flatten.map Interface.toSection := by
  rw [List.map_flatten]
  rfl

theorem bytes_ofInterfaces (h9 : c.descriptor.bLength = 9) (h : c.Ordered iss) :
    (ConfigBlob.ofInterfaces c.descriptor iss).bytes = c.getFullDescriptor := by
  obtain ⟨gs, hgs, hints, -⟩ := h.groups
  unfold ConfigBlob.bytes ConfigBlob.records Configuration.getFullDescriptor
  rw [sections_ofInterfaces, hgs, reduceOption_map_some, flatMap_getFullDescriptor hints h.alternates, h9,
    List.flatMap_map]
  show _ ++ layout (iss.flatten.flatMap fun i => i.toSection.records) = _
  unfold layout
  rw [List.flatMap_assoc]
  refine congrArg (c.descriptor.bytes ++ ·) (List.flatMap_congr fun i _ => ?_)
  exact Interface.layout_toSection i

theorem valid_ofInterfaces (h9 : c.descriptor.bLength = 9) (h : c.Ordered iss)
    (htotal : c.descriptor.wTotalLength.toNat = c.getFullDescriptor.length)
    (hsound : ∀ i ∈ iss.flatten, i.Sound) : (ConfigBlob.ofInterfaces c.descriptor iss).Valid where
  bLength := h9
  wTotalLength := by rw [bytes_ofInterfaces h9 h]; exact htotal
  bNumInterfaces := by
    obtain ⟨gs, hgs, hints, -⟩ := h.groups
    have hlen := congrArg List.length hints
    rw [List.length_map, List.length_map] at hlen
    show (iss.map _).length = c.descriptor.bNumInterfaces.toNat
    rw [← c.groups_length, hgs, List.length_map, List.length_map, hlen]
  leading := by
    intro r hr
    cases hr
  numbered := by
    show Numbered 0 ((iss.map (List.map Interface.toSection)).map (List.map Section.descriptor))
    rw [List.map_map]
    have hmap : List.map Section.descriptor ∘ List.map Interface.toSection =
        List.map Interface.descriptor := by
      funext is
      show (is.map Interface.toSection).map Section.descriptor = _
      rw [List.map_map]
      rfl
    rw [hmap]
    exact h.numbered
  sections := by
    intro sec hsec
    rw [sections_ofInterfaces] at hsec
    obtain ⟨i, hi, rfl⟩ := List.mem_map.1 hsec
    exact (hsound i hi).valid

theorem regular_ofInterfaces (header : UsbConfigDescriptor) (halt : ∀ is ∈ iss, is.length ≤ 255)
    (hsound : ∀ i ∈ iss.flatten, i.Sound) : (ConfigBlob.ofInterfaces header iss).Regular where
  endpoint_size := by
    intro sec hsec r hr
    rw [sections_ofInterfaces] at hsec
    obtain ⟨i, hi, rfl⟩ := List.mem_map.1 hsec
    rw [(hsound i hi).ofKind_rest.2.2] at hr
    exact ((hsound i hi).record_of_mem hr).1
  others := by
    intro x hx
    have hsec := snd_mem_of_mem_withLeading hx
    rw [sections_ofInterfaces] at hsec
    obtain ⟨i, hi, heq⟩ := List.mem_map.1 hsec
    have hlead : x.1 = [] := (fst_of_mem_withLeading hx).elim id id
    rw [hlead, ← heq, (hsound i hi).ofKind_rest.2.1, List.length_nil, Nat.zero_add]
    exact i.genericDescriptors.length_le
  alternates := by
    intro secs hsecs
    obtain ⟨is, his, rfl⟩ := List.mem_map.1 hsecs
    rw [List.length_map]
    exact halt is his
  leading _ := rfl

end OfInterfaces

/-! ## Back to the model -/

theorem map_model_of_filed {is is' : List Interface} (hsound : ∀ i ∈ is, i.Sound)
    (h : List.Forall₂ (fun x i => Filed x.1 x.2 i) (withLeading [] (is.map Interface.toSection)) is') :
    is'.map Interface.model = is.map Interface.model := by
  rw [withLeading_nil] at h
  induction is generalizing is' with
  | nil =>
    cases h
    rfl
  | cons i is ih =>
    cases h with
    | cons hi hrest =>
      rw [List.map_cons, List.map_cons, (hsound i (List.mem_cons_self ..)).model_of_filed hi,
        ih (fun j hj => hsound j (List.mem_cons_of_mem _ hj)) hrest]

theorem map_groupModel {gs gs' : List InterfaceGroup}
    (hnum : gs'.map (fun g => g.number.toNat) = gs.map fun g => g.number.toNat)
    (hints : gs'.map (fun g => g.interfaces.map (Option.map Interface.model)) =
      gs.map fun g => g.interfaces.map (Option.map Interface.model)) :
    gs'.map InterfaceGroup.model = gs.map InterfaceGroup.model := by
  have hmodel : ∀ gs : List InterfaceGroup, gs.map InterfaceGroup.model =
      ((gs.map fun g => g.number.toNat).zip
        (gs.map fun g => g.interfaces.map (Option.map Interface.model))).map fun x =>
          { number := UInt8.ofNat x.1, alternateCount := UInt8.ofNat x.2.length, interfaces := x.2 } := by
    intro gs
    rw [List.zip_map', List.map_map]
    apply List.map_congr_left
    intro g _
    simp only [InterfaceGroup.model, Function.comp_apply, UInt8.ofNat_toNat, List.length_map]
    rw [g.count_eq]
  rw [hmodel gs', hmodel gs, hnum, hints]

/-- **Decoding undoes encoding.**  A configuration that `is_defined` accepts, with its HID and other
descriptors filed as what they are, is read back from its own bytes as the same model. -/
theorem model_ofDevice {c : Configuration} {highSpeed : Bool}
    (h : (c.isDefined highSpeed).error = .none) (hfiled : c.WellFiled) {proxy : DeviceProxy}
    {idx : UInt16} {otherSpeed : Bool} (hserve : Serves proxy idx otherSpeed c.getFullDescriptor)
    (uninit : Uninit) :
    ∃ c' fuel₀, (∀ fuel ≥ fuel₀,
        Configuration.ofDevice proxy uninit idx otherSpeed fuel = .ok c') ∧ c'.model = c.model := by
  obtain ⟨h9, htotal, -⟩ := Configuration.isDefined_ok h
  obtain ⟨iss, hord, hdef⟩ := Configuration.ordered_of_isDefined h
  have hsound : ∀ i ∈ iss.flatten, i.Sound := by
    intro i hi
    obtain ⟨hmem, configId, number, hok⟩ := hdef i hi
    exact Interface.sound_of_isDefined hok (hfiled i hmem)
  rw [← bytes_ofInterfaces h9 hord] at hserve
  obtain ⟨c', hrep, fuel₀, hfuel⟩ := ofDevice_blob (valid_ofInterfaces h9 hord htotal hsound)
    (regular_ofInterfaces c.descriptor hord.alternates hsound) hserve uninit
  refine ⟨c', fuel₀, hfuel, ?_⟩
  obtain ⟨gs, hgs, hints, hnums⟩ := hord.groups
  obtain ⟨gs', iss', hgs', hints', hnums', hfiled', hdesc⟩ := hrep.groups
  -- The interfaces agree in a row, and each group has as many.
  have hlens : iss'.map List.length = iss.map List.length := by
    have := congrArg (List.map List.length) hdesc
    simpa [ConfigBlob.ofInterfaces, Function.comp_def] using this
  have hflat : iss'.map (List.map Interface.model) = iss.map (List.map Interface.model) := by
    rw [List.eq_iff_flatten_eq, ← List.map_flatten, ← List.map_flatten]
    refine ⟨map_model_of_filed hsound ?_, by simpa [Function.comp_def] using hlens⟩
    rw [← sections_ofInterfaces c.descriptor]
    exact hfiled'
  have hmodels : ∀ {gs : List InterfaceGroup} {iss : List (List Interface)},
      gs.map InterfaceGroup.interfaces = iss.map (List.map some) →
      gs.map (fun g => g.interfaces.map (Option.map Interface.model)) =
        (iss.map (List.map Interface.model)).map (List.map some) := by
    intro gs iss h
    have := congrArg (List.map (List.map (Option.map Interface.model))) h
    simpa [Function.comp_def] using this
  have hlength : iss'.length = iss.length := by simpa using congrArg List.length hlens
  have hgroups : gs'.map InterfaceGroup.model = gs.map InterfaceGroup.model :=
    map_groupModel (by rw [hnums, hnums', hlength]) (by rw [hmodels hints, hmodels hints', hflat])
  unfold Configuration.model
  rw [hrep.descriptor, hgs, hgs', List.map_map, List.map_map]
  apply congrArg (ConfigurationModel.mk c.descriptor)
  have := congrArg (List.map some) hgroups
  rwa [List.map_map, List.map_map] at this

/-- The keyboard as an object built by hand, without other descriptors. -/
def keyboardInterface : Interface where
  descriptor := ⟨9, 4, 0, 0, 1, 3, 1, 1, 0⟩
  endpoints := [some ⟨⟨7, 5, 0x81, 3, 8, 10, 0, 0⟩⟩]
  hidDescriptor := some hidDescriptor
  genericDescriptors := .none
  endpoints_length := rfl

def keyboardConfiguration : Configuration where
  descriptor := ⟨9, 2, 34, 1, 1, 0, 0xa0, 50⟩
  interfaceGroups := [some ((InterfaceGroup.new 0).addInterface keyboardInterface)]
  groups_length := rfl

theorem model_ofDevice_keyboard :
    ∃ c' fuel₀, (∀ fuel ≥ fuel₀, Configuration.ofDevice
        (.ofBytes keyboardConfiguration.getFullDescriptor) .zero 0 false fuel = .ok c') ∧
      c'.model = keyboardConfiguration.model := by
  have hdef : (keyboardConfiguration.isDefined false).error = .none := by decide
  refine model_ofDevice hdef ?_ (serves_ofBytes (by decide) 0 false) .zero
  intro i hi
  have hall : keyboardConfiguration.interfaceGroups.reduceOption.flatMap InterfaceGroup.interfaces =
      [some keyboardInterface] := rfl
  obtain rfl : i = keyboardInterface := by simpa [hall] using hi
  exact ⟨by decide, by decide⟩

end UsbProxy
