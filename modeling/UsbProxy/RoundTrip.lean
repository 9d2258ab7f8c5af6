import UsbProxy.ParserSections

/-!
# Parsing and putting out a configuration

`Configuration.ofDevice` on a device that sends a valid configuration: the object it makes holds the
blob's sections in the blob's groups (`ofDevice_blob`), so `get_full_descriptor` gives the blob back
with every section in the order of `Section.arranged`.
-/

namespace UsbProxy

open Records Iteration

/-- What the objects can hold: endpoints of seven bytes, counters of one byte, and no descriptor in
front of an interface descriptor that never comes. -/
structure ConfigBlob.Regular (blob : ConfigBlob) : Prop where
  endpoint_size : ∀ sec ∈ blob.sections, ∀ r ∈ ofKind .endpoint sec.rest, r.size = 7
  others : ∀ x ∈ withLeading blob.leading blob.sections,
    x.1.length + (ofKind .other x.2.rest).length ≤ 255
  alternates : ∀ secs ∈ blob.groups, secs.length ≤ 255
  leading : blob.sections = [] → blob.leading = []

theorem snd_mem_of_mem_withLeading {lead : List Record} {secs : List Section}
    {x : List Record × Section} (h : x ∈ withLeading lead secs) : x.2 ∈ secs := by
  cases secs with
  | nil => cases h
  | cons sec secs =>
    rcases List.mem_cons.1 h with rfl | h
    · exact List.mem_cons_self ..
    · obtain ⟨sec', hsec', rfl⟩ := List.mem_map.1 h
      exact List.mem_cons_of_mem _ hsec'

theorem fst_of_mem_withLeading {lead : List Record} {secs : List Section}
    {x : List Record × Section} (h : x ∈ withLeading lead secs) : x.1 = lead ∨ x.1 = [] := by
  cases secs with
  | nil => cases h
  | cons sec secs =>
    rcases List.mem_cons.1 h with rfl | h
    · exact .inl rfl
    · obtain ⟨sec', -, rfl⟩ := List.mem_map.1 h
      exact .inr rfl

theorem ConfigBlob.Regular.fits {blob : ConfigBlob} (hr : blob.Regular) (hv : blob.Valid)
    {x : List Record × Section} (hx : x ∈ withLeading blob.leading blob.sections) :
    Fits x.1 x.2.descriptor x.2.rest := by
  have hsec := snd_mem_of_mem_withLeading hx
  exact ⟨(hv.sections _ hsec).endpoints, hr.endpoint_size _ hsec, (hv.sections _ hsec).hid,
    hr.others x hx⟩

/-! ## The walk over a blob -/

/-- The parsing constructors get through a row of sections and file them. -/
theorem Parser.after_row (header : UsbConfigDescriptor) {lead : List Record} {secs : List Section}
    (hlead : ∀ r ∈ lead, Inner r) (hne : secs = [] → lead = []) (hsecs : ∀ sec ∈ secs, sec.Valid)
    (hfit : ∀ x ∈ withLeading lead secs, Fits x.1 x.2.descriptor x.2.rest) (beyond : Memory)
    (uninit : ℕ → Memory) :
    let bytes := header.bytes ++ layout (lead ++ secs.flatMap Section.records)
    ∃ is, List.Forall₂ (fun x i => Filed x.1 x.2 i) (withLeading lead secs) is ∧
      ∃ n₀, ∀ n ≥ n₀, after (Memory.ofBuffer bytes beyond) uninit bytes.length n =
        { loop := .done, p := bytes.length
          configuration := is.foldl Configuration.addInterface (.new header) } := by
  intro bytes
  obtain ⟨hheader, hrecords⟩ := holds_append.1 (holds_ofBuffer bytes beyond)
  rw [UsbConfigDescriptor.length_bytes] at hrecords
  have hend : 9 + (layout (lead ++ secs.flatMap Section.records)).length = bytes.length := by
    rw [List.length_append, UsbConfigDescriptor.length_bytes]
  obtain ⟨is, his, hreach⟩ :=
    sections_run uninit (s := init (Memory.ofBuffer bytes beyond)) rfl hrecords hend hlead hne hsecs hfit
  refine ⟨is, his, ?_⟩
  -- Behind the last section the outer guard fails.
  have hleave : step (Memory.ofBuffer bytes beyond) uninit bytes.length
      ⟨.configuration, bytes.length, is.foldl Configuration.addInterface
        (.new (.ofMemory (Memory.ofBuffer bytes beyond) 0)), false⟩ = _ :=
    step_leave rfl (Nat.lt_irrefl _)
  have hdone := hreach.trans (.single _)
  rw [init, hleave, UsbConfigDescriptor.ofMemory_of_holds hheader] at hdone
  obtain ⟨n₀, hn₀⟩ := hdone.eventually (step_done rfl)
  refine ⟨n₀, fun n hn => ?_⟩
  rw [← hn₀ n hn, after, init, UsbConfigDescriptor.ofMemory_of_holds hheader]

/-- The parsing constructors get through a valid blob and file its sections. -/
theorem Parser.after_blob {blob : ConfigBlob} (hv : blob.Valid) (hr : blob.Regular)
    (beyond : Memory) (uninit : ℕ → Memory) :
    ∃ is, List.Forall₂ (fun x i => Filed x.1 x.2 i) (withLeading blob.leading blob.sections) is ∧
      ∃ n₀, ∀ n ≥ n₀, after (Memory.ofBuffer blob.bytes beyond) uninit blob.bytes.length n =
        { loop := .done, p := blob.bytes.length
          configuration := is.foldl Configuration.addInterface (.new blob.header) } :=
  after_row blob.header hv.leading hr.leading hv.sections (fun _ hx => hr.fits hv hx) beyond uninit

/-! ## The constructor on a blob -/

/-- The device sends `bytes` for the configuration and knows the active alternate settings. -/
structure Serves (proxy : DeviceProxy) (idx : UInt16) (otherSpeed : Bool) (bytes : List Byte) :
    Prop where
  header : proxy.controlRequest 0 (Configuration.getDescriptorRequest idx otherSpeed 9) =
    some (bytes.take 9)
  full : proxy.controlRequest 1
    (Configuration.getDescriptorRequest idx otherSpeed (UInt16.ofNat bytes.length)) = some bytes
  alternate : ∀ n i, ∃ bs, proxy.controlRequest (n + 2) (Configuration.getInterfaceRequest i) = some bs

/-- The object holds the sections of the blob, each in the group of its number. -/
structure Represents (c : Configuration) (blob : ConfigBlob) : Prop where
  descriptor : c.descriptor = blob.header
  groups : ∃ (gs : List InterfaceGroup) (iss : List (List Interface)),
    c.interfaceGroups = gs.map some ∧ gs.map InterfaceGroup.interfaces = iss.map (List.map some) ∧
      gs.map (fun g => g.number.toNat) = List.range iss.length ∧
      List.Forall₂ (fun x i => Filed x.1 x.2 i) (withLeading blob.leading blob.sections) iss.flatten ∧
      iss.map (List.map Interface.descriptor) = blob.groups.map (List.map Section.descriptor)

theorem activeAlternates_ok {proxy : DeviceProxy} (uninit : Byte)
    (hserve : ∀ n i, ∃ bs, proxy.controlRequest (n + 2) (Configuration.getInterfaceRequest i) = some bs)
    (n i : ℕ) (gs : List InterfaceGroup) :
    ∃ out, Configuration.activeAlternates proxy uninit (n + 2) i (gs.map some) = .ok out ∧
      ∃ gs' : List InterfaceGroup, out.1 = gs'.map some ∧
        gs'.map InterfaceGroup.interfaces = gs.map InterfaceGroup.interfaces ∧
        gs'.map InterfaceGroup.number = gs.map InterfaceGroup.number := by
  induction gs generalizing n i with
  | nil => exact ⟨_, rfl, [], rfl, rfl, rfl⟩
  | cons g gs ih =>
    by_cases hone : g.alternateCount = 1
    · obtain ⟨out, hout, gs', hgs', hints, hnums⟩ := ih n (i + 1)
      refine ⟨⟨some { g with activeAlternateIndex := 0 } :: out.1, congrArg (· + 1) out.2⟩, ?_,
        { g with activeAlternateIndex := 0 } :: gs', congrArg (_ :: ·) hgs',
        congrArg (_ :: ·) hints, congrArg (_ :: ·) hnums⟩
      show Configuration.activeAlternates proxy uninit (n + 2) i (some g :: gs.map some) = _
      rw [Configuration.activeAlternates, if_pos hone, hout]
      rfl
    · obtain ⟨bs, hbs⟩ := hserve n i
      obtain ⟨out, hout, gs', hgs', hints, hnums⟩ := ih (n + 1) (i + 1)
      have hrequest : Configuration.request proxy (n + 2) (Configuration.getInterfaceRequest i) =
          .ok bs := by
        unfold Configuration.request
        rw [hbs]
        rfl
      let active : ℤ := (bs.headD uninit).toNat
      refine ⟨⟨some { g with activeAlternateIndex := active } :: out.1, congrArg (· + 1) out.2⟩, ?_,
        { g with activeAlternateIndex := active } :: gs', congrArg (_ :: ·) hgs',
        congrArg (_ :: ·) hints, congrArg (_ :: ·) hnums⟩
      show Configuration.activeAlternates proxy uninit (n + 2) i (some g :: gs.map some) = _
      rw [Configuration.activeAlternates, if_neg hone, hrequest,
        show n + 2 + 1 = n + 1 + 2 from rfl, hout]
      rfl

theorem exists_flatten_of_map {α β : Type*} {f : α → β} {as : List α} {bss : List (List β)}
    (h : as.map f = bss.flatten) :
    ∃ ass : List (List α), as = ass.flatten ∧ ass.map (List.map f) = bss := by
  induction bss generalizing as with
  | nil => exact ⟨[], by simpa using h, rfl⟩
  | cons bs bss ih =>
    rw [List.flatten_cons] at h
    obtain ⟨as₁, as₂, rfl, h₁, h₂⟩ := List.map_eq_append_iff.1 h
    obtain ⟨ass, rfl, hass⟩ := ih h₂
    exact ⟨as₁ :: ass, rfl, by rw [List.map_cons, h₁, hass]⟩

theorem map_descriptor_of_filed {xs : List (List Record × Section)} {is : List Interface}
    (h : List.Forall₂ (fun x i => Filed x.1 x.2 i) xs is) :
    is.map Interface.descriptor = (xs.map Prod.snd).map Section.descriptor := by
  induction h with
  | nil => rfl
  | cons hx _ ih => rw [List.map_cons, List.map_cons, List.map_cons, hx.descriptor, ih]

theorem map_snd_withLeading (lead : List Record) (secs : List Section) :
    (withLeading lead secs).map Prod.snd = secs := by
  cases secs with
  | nil => rfl
  | cons sec secs => simp [withLeading, Function.comp_def]

/-- Interfaces that carry the descriptors of the groups are as few in each group. -/
theorem alternates_le {blob : ConfigBlob} (hr : blob.Regular) {iss : List (List Interface)}
    (h : iss.map (List.map Interface.descriptor) = blob.groups.map (List.map Section.descriptor)) :
    ∀ is ∈ iss, is.length ≤ 255 := by
  intro is his
  have hmem : is.map Interface.descriptor ∈ blob.groups.map (List.map Section.descriptor) := by
    rw [← h]
    exact List.mem_map_of_mem his
  obtain ⟨secs, hsecs, heq⟩ := List.mem_map.1 hmem
  have hlen := congrArg List.length heq
  rw [List.length_map, List.length_map] at hlen
  rw [← hlen]
  exact hr.alternates secs hsecs

/-- The two requests of the constructor fetch the bytes. -/
theorem ofDevice_of_serves {header : UsbConfigDescriptor} {rest : List Byte}
    (hw : header.wTotalLength.toNat = (header.bytes ++ rest).length) {proxy : DeviceProxy}
    {idx : UInt16} {otherSpeed : Bool} (hserve : Serves proxy idx otherSpeed (header.bytes ++ rest))
    {uninit : Uninit} {fuel : ℕ} {s : Parser} {c : Configuration}
    (hs : Parser.after (Memory.ofBuffer (header.bytes ++ rest) uninit.buffer) uninit.object
      (header.bytes ++ rest).length fuel = s) (hok : s.crashed = false)
    (hc : Configuration.finish proxy uninit.result s = .ok c) :
    Configuration.ofDevice proxy uninit idx otherSpeed fuel = .ok c := by
  have hheader : (header.bytes ++ rest).take 9 = header.bytes := List.take_left' rfl
  have htotal : leWord (Memory.ofBuffer header.bytes uninit.buffer 2)
      (Memory.ofBuffer header.bytes uninit.buffer 3) =
        UInt16.ofNat (header.bytes ++ rest).length := by
    rw [← hw, UInt16.ofNat_toNat]
    exact leWord_leBytes header.wTotalLength
  have hfirst : Configuration.request proxy 0 (Configuration.getDescriptorRequest idx otherSpeed 9) =
      .ok header.bytes := by
    unfold Configuration.request
    rw [hserve.header, hheader]
    rfl
  have hsecond : Configuration.request proxy 1 (Configuration.getDescriptorRequest idx otherSpeed
      (UInt16.ofNat (header.bytes ++ rest).length)) = .ok (header.bytes ++ rest) := by
    unfold Configuration.request
    rw [hserve.full]
    rfl
  unfold Configuration.ofDevice
  rw [hfirst]
  show (Configuration.request proxy 1 (Configuration.getDescriptorRequest idx otherSpeed
    (leWord (Memory.ofBuffer header.bytes uninit.buffer 2)
      (Memory.ofBuffer header.bytes uninit.buffer 3))) >>= _) = _
  rw [htotal, hsecond]
  show (if (Parser.after _ _ _ _).crashed then _ else Configuration.finish _ _ (Parser.after _ _ _ _)) = _
  rw [hs, hok, hc]
  rfl

/-- The constructor behind a walk that is done: it makes an object with the same interfaces in all
groups. -/
theorem finish_ok {proxy : DeviceProxy} {idx : UInt16} {otherSpeed : Bool} {bytes : List Byte}
    (hserve : Serves proxy idx otherSpeed bytes) (uninit : Byte) (p : ℕ) {c : Configuration}
    {gs : List InterfaceGroup} (hgs : c.interfaceGroups = gs.map some) :
    ∃ (cfg : Configuration) (gs' : List InterfaceGroup),
      Configuration.finish proxy uninit { loop := .done, p, configuration := c } = .ok cfg ∧
      cfg.descriptor = c.descriptor ∧ cfg.interfaceGroups = gs'.map some ∧
      gs'.map InterfaceGroup.interfaces = gs.map InterfaceGroup.interfaces ∧
      gs'.map InterfaceGroup.number = gs.map InterfaceGroup.number := by
  have hactive := activeAlternates_ok uninit hserve.alternate 0 0 gs
  rw [← hgs] at hactive
  obtain ⟨out, hout, gs', hgs', hints, hnums⟩ := hactive
  refine ⟨{ c with interfaceGroups := out.1, groups_length := out.2.trans c.groups_length }, gs', ?_,
    rfl, hgs', hints, hnums⟩
  unfold Configuration.finish
  show (Configuration.activeAlternates proxy uninit 2 0 c.interfaceGroups >>= _) = _
  rw [hout]
  rfl

/-- **The constructor on a valid blob.**  With enough steps it returns an object that holds it. -/
theorem ofDevice_blob {blob : ConfigBlob} (hv : blob.Valid) (hr : blob.Regular)
    {proxy : DeviceProxy} {idx : UInt16} {otherSpeed : Bool}
    (hserve : Serves proxy idx otherSpeed blob.bytes) (uninit : Uninit) :
    ∃ c, Represents c blob ∧ ∃ fuel₀, ∀ fuel ≥ fuel₀,
      Configuration.ofDevice proxy uninit idx otherSpeed fuel = .ok c := by
  obtain ⟨is, his, n₀, hn₀⟩ := Parser.after_blob hv hr uninit.buffer uninit.object
  -- The interfaces fall into the groups of the blob.
  have hdesc : is.map Interface.descriptor =
      (blob.groups.map (List.map Section.descriptor)).flatten := by
    rw [map_descriptor_of_filed his, map_snd_withLeading, ConfigBlob.sections, List.map_flatten]
  obtain ⟨iss, rfl, hiss⟩ := exists_flatten_of_map hdesc
  have hlen : iss.length = blob.groups.length := by
    have := congrArg List.length hiss
    rwa [List.length_map, List.length_map] at this
  have hbyte := blob.header.bNumInterfaces.toNat_lt
  have halt : ∀ is ∈ iss, is.length ≤ 255 := alternates_le hr hiss
  have hnone : (Configuration.new blob.header).interfaceGroups =
      ([] : List InterfaceGroup).map some ++ List.replicate iss.length none := by
    rw [hlen, hv.bNumInterfaces]
    rfl
  have hnum : Numbered ([] : List InterfaceGroup).length (iss.map (List.map Interface.descriptor)) := by
    rw [hiss]
    exact hv.numbered
  obtain ⟨gs, hgs, hall, hnums⟩ := Configuration.foldl_numbered iss [] (.new blob.header) hnone
    (by rw [hlen, hv.bNumInterfaces, List.length_nil]; omega) halt hnum
  rw [List.nil_append] at hgs
  obtain ⟨c, gs', hfinish, hheader, hgs', hints, hnums'⟩ :=
    finish_ok hserve uninit.result blob.bytes.length hgs
  refine ⟨c, ⟨hheader.trans (Configuration.descriptor_foldl _ _), gs', iss, hgs', hints.trans hall, ?_,
    his, hiss⟩, n₀, fun fuel hfuel => ofDevice_of_serves hv.wTotalLength hserve (hn₀ fuel hfuel) rfl hfinish⟩
  have hcomp := congrArg (List.map UInt8.toNat) hnums'
  rw [List.map_map, List.map_map] at hcomp
  rw [List.range_eq_range']
  exact hcomp.trans hnums

/-! ## What is put out -/

theorem flatMap_getFullDescriptor {gs : List InterfaceGroup} {iss : List (List Interface)}
    (h : gs.map InterfaceGroup.interfaces = iss.map (List.map some))
    (hlen : ∀ is ∈ iss, is.length ≤ 255) :
    gs.flatMap InterfaceGroup.getFullDescriptor = iss.flatten.flatMap Interface.getFullDescriptor := by
  induction gs generalizing iss with
  | nil =>
    cases iss with
    | nil => rfl
    | cons is iss => cases h
  | cons g gs ih =>
    cases iss with
    | nil => cases h
    | cons is iss =>
      obtain ⟨hg, hgs⟩ := List.cons.inj h
      have hle : g.interfaces.length ≤ 255 := by
        rw [hg, List.length_map]
        exact hlen is (List.mem_cons_self ..)
      rw [List.flatMap_cons, List.flatten_cons, List.flatMap_append,
        ih hgs (fun x hx => hlen x (List.mem_cons_of_mem _ hx)), InterfaceGroup.getFullDescriptor,
        InterfaceGroup.alternates_of_length_le hle, hg, reduceOption_map_some]

theorem flatMap_filed {xs : List (List Record × Section)} {is : List Interface}
    (h : List.Forall₂ (fun x i => Filed x.1 x.2 i) xs is) :
    is.flatMap Interface.getFullDescriptor = layout (xs.flatMap fun x => x.2.arranged x.1) := by
  induction h with
  | nil => rfl
  | cons hx _ ih =>
    rw [List.flatMap_cons, List.flatMap_cons, layout_append, hx.getFullDescriptor, ih]

theorem Represents.getFullDescriptor {c : Configuration} {blob : ConfigBlob} (h : Represents c blob)
    (hv : blob.Valid) (hr : blob.Regular) :
    c.getFullDescriptor = blob.header.bytes ++ layout blob.arranged := by
  obtain ⟨gs, iss, hgs, hints, -, hfiled, hdesc⟩ := h.groups
  have hlen : ∀ is ∈ iss, is.length ≤ 255 := alternates_le hr hdesc
  unfold Configuration.getFullDescriptor
  rw [h.descriptor, hv.bLength, hgs, reduceOption_map_some, flatMap_getFullDescriptor hints hlen,
    flatMap_filed hfiled]
  rfl

/-! ## When the bytes come back unchanged -/

theorem flatMap_inj_of_length {α β : Type*} {l : List α} {f g : α → List β}
    (hlen : ∀ a ∈ l, (f a).length = (g a).length) :
    l.flatMap f = l.flatMap g ↔ ∀ a ∈ l, f a = g a := by
  induction l with
  | nil => simp
  | cons a l ih =>
    rw [List.flatMap_cons, List.flatMap_cons, List.forall_mem_cons,
      ← ih fun x hx => hlen x (List.mem_cons_of_mem _ hx)]
    constructor
    · exact fun h => List.append_inj h (hlen a (List.mem_cons_self ..))
    · rintro ⟨h₁, h₂⟩
      rw [h₁, h₂]

/-- Every descriptor of a valid blob can be told from its neighbours. -/
theorem ConfigBlob.Valid.size_pos {blob : ConfigBlob} (hv : blob.Valid) :
    (∀ r ∈ blob.records, 0 < r.size.toNat) ∧ ∀ r ∈ blob.arranged, 0 < r.size.toNat := by
  have hinner : ∀ {r : Record}, Inner r → 0 < r.size.toNat := fun h => by
    have := h.1
    omega
  have hhead : ∀ sec ∈ blob.sections, 0 < sec.head.size.toNat := fun sec hsec => by
    rw [Section.size_head (hv.sections sec hsec).bLength]
    decide
  constructor
  · intro r hr
    rcases List.mem_append.1 hr with hr | hr
    · exact hinner (hv.leading r hr)
    · obtain ⟨sec, hsec, hr⟩ := List.mem_flatMap.1 hr
      rcases List.mem_cons.1 hr with rfl | hr
      · exact hhead sec hsec
      · exact hinner ((hv.sections sec hsec).rest r hr)
  · intro r hr
    obtain ⟨x, hx, hr⟩ := List.mem_flatMap.1 hr
    have hsec := snd_mem_of_mem_withLeading hx
    rcases Section.mem_arranged hr with rfl | hr | hr
    · exact hhead _ hsec
    · rcases fst_of_mem_withLeading hx with hx | hx
      · exact hinner (hv.leading r (by rwa [hx] at hr))
      · rw [hx] at hr
        cases hr
    · exact hinner ((hv.sections _ hsec).rest r hr)

/-- The objects' order is the blob's exactly when nothing stands in front of the first interface
descriptor and every section has HID descriptor, other descriptors and endpoints in this order. -/
theorem arranged_eq_records_iff {blob : ConfigBlob} (hv : blob.Valid) (hr : blob.Regular) :
    blob.arranged = blob.records ↔ blob.leading = [] ∧ ∀ sec ∈ blob.sections,
      sec.rest = ofKind .hid sec.rest ++ ofKind .other sec.rest ++ ofKind .endpoint sec.rest := by
  have hsorted : blob.leading = [] → (blob.arranged = blob.records ↔ ∀ sec ∈ blob.sections,
      sec.rest = ofKind .hid sec.rest ++ ofKind .other sec.rest ++ ofKind .endpoint sec.rest) := by
    intro hl
    unfold ConfigBlob.arranged ConfigBlob.records
    rw [hl, withLeading_nil, List.flatMap_map, List.nil_append]
    show blob.sections.flatMap (fun sec => sec.arranged []) = _ ↔ _
    rw [flatMap_inj_of_length fun sec _ => by
      rw [Section.length_arranged, List.length_nil, Nat.zero_add]]
    exact forall₂_congr fun sec _ => Section.arranged_nil_eq_iff
  constructor
  · intro h
    -- A descriptor in front would change places with the interface descriptor.
    have hl : blob.leading = [] := by
      by_contra hne
      obtain ⟨r, lead, hlead⟩ := List.exists_cons_of_ne_nil hne
      have hsne : blob.sections ≠ [] := fun h0 => hne (hr.leading h0)
      obtain ⟨sec, secs, hsecs⟩ := List.exists_cons_of_ne_nil hsne
      unfold ConfigBlob.arranged ConfigBlob.records at h
      rw [hlead, hsecs, withLeading_cons] at h
      have hhead : sec.head = r := (List.cons.inj h).1
      have hmem : sec ∈ blob.sections := by
        rw [hsecs]
        exact List.mem_cons_self ..
      have htag := Section.tag_head (hv.sections sec hmem).bLength
      rw [(hv.sections sec hmem).bDescriptorType, hhead] at htag
      exact (hv.leading r (by rw [hlead]; exact List.mem_cons_self ..)).2 htag
    exact ⟨hl, (hsorted hl).1 h⟩
  · rintro ⟨hl, h⟩
    exact (hsorted hl).2 h

/-- **Round trip.**  A valid blob the objects can hold comes back with each section in the order
interface, HID, others (those in front of the first interface descriptor first), endpoints; so it
comes back byte for byte exactly when it is in that order. -/
theorem getFullDescriptor_ofDevice {blob : ConfigBlob} (hv : blob.Valid) (hr : blob.Regular)
    {proxy : DeviceProxy} {idx : UInt16} {otherSpeed : Bool}
    (hserve : Serves proxy idx otherSpeed blob.bytes) (uninit : Uninit) :
    ∃ c fuel₀, (∀ fuel ≥ fuel₀,
        Configuration.ofDevice proxy uninit idx otherSpeed fuel = .ok c) ∧
      c.getFullDescriptor = blob.header.bytes ++ layout blob.arranged ∧
      (c.getFullDescriptor = blob.bytes ↔ blob.leading = [] ∧ ∀ sec ∈ blob.sections,
        sec.rest = ofKind .hid sec.rest ++ ofKind .other sec.rest ++ ofKind .endpoint sec.rest) := by
  obtain ⟨c, hrep, fuel₀, hfuel⟩ := ofDevice_blob hv hr hserve uninit
  have hbytes := hrep.getFullDescriptor hv hr
  refine ⟨c, fuel₀, hfuel, hbytes, ?_⟩
  rw [hbytes, ← arranged_eq_records_iff hv hr, ConfigBlob.bytes, List.append_cancel_left_eq]
  constructor
  · exact layout_injective hv.size_pos.2 hv.size_pos.1
  · intro h
    rw [h]

/-! ## A device with an interface association -/

/-- The device that answers with the same bytes every time and is at alternate setting 0. -/
def DeviceProxy.ofBytes (bytes : List Byte) : DeviceProxy where
  controlRequest n r := some ((if n < 2 then bytes else [0]).take r.wLength.toNat)
  length_le := by
    intro n r bs h
    obtain rfl := Option.some.inj h
    exact List.length_take_le ..

theorem serves_ofBytes {bytes : List Byte} (h : bytes.length < 65536) (idx : UInt16)
    (otherSpeed : Bool) : Serves (.ofBytes bytes) idx otherSpeed bytes where
  header := rfl
  full := by
    show some (bytes.take (UInt16.ofNat bytes.length).toNat) = _
    rw [UInt16.toNat_ofNat_of_lt' h, List.take_length]
  alternate n i := ⟨_, rfl⟩

def iad : Record := ⟨[8, 0x0b, 0, 1, 3, 0, 0, 0], rfl⟩

def hidDescriptor : Record := ⟨[9, 0x21, 0x11, 1, 0, 1, 0x22, 63, 0], rfl⟩

def endpointDescriptor : Record := ⟨[7, 5, 0x81, 3, 8, 0, 10], rfl⟩

/-- A keyboard: one interface with its HID descriptor and an interrupt endpoint. -/
def keyboard (leading : List Record) (wTotalLength : UInt16) : ConfigBlob where
  header := ⟨9, 2, wTotalLength, 1, 1, 0, 0xa0, 50⟩
  leading := leading
  groups := [[⟨⟨9, 4, 0, 0, 1, 3, 1, 1, 0⟩, [hidDescriptor, endpointDescriptor]⟩]]

theorem keyboard_valid {leading : List Record} {w : UInt16} (hl : ∀ r ∈ leading, Inner r)
    (hw : w.toNat = (keyboard leading w).bytes.length) : (keyboard leading w).Valid where
  bLength := rfl
  wTotalLength := hw
  bNumInterfaces := rfl
  leading := hl
  numbered := by
    refine ⟨⟨by simp, fun m hm => ?_⟩, trivial⟩
    obtain rfl : m = 0 := by simpa [keyboard] using hm
    exact ⟨rfl, rfl⟩
  sections := by
    intro sec hsec
    obtain rfl : sec = ⟨⟨9, 4, 0, 0, 1, 3, 1, 1, 0⟩, [hidDescriptor, endpointDescriptor]⟩ := by
      simpa [keyboard, ConfigBlob.sections] using hsec
    refine ⟨rfl, rfl, ?_, by decide, ?_, by decide⟩
    · unfold Inner
      decide
    · decide

theorem keyboard_regular {leading : List Record} {w : UInt16} (hl : leading.length ≤ 255) :
    (keyboard leading w).Regular where
  endpoint_size := by
    intro sec hsec
    obtain rfl : sec = ⟨⟨9, 4, 0, 0, 1, 3, 1, 1, 0⟩, [hidDescriptor, endpointDescriptor]⟩ := by
      simpa [keyboard, ConfigBlob.sections] using hsec
    decide
  others := by
    intro x hx
    obtain rfl : x = (leading, ⟨⟨9, 4, 0, 0, 1, 3, 1, 1, 0⟩, [hidDescriptor, endpointDescriptor]⟩) := by
      simpa [keyboard, ConfigBlob.sections, withLeading] using hx
    exact hl
  alternates := by simp [keyboard]
  leading h := by simp [keyboard, ConfigBlob.sections] at h

/-- Memory that reads as zero where nothing was written. -/
def Uninit.zero : Uninit := ⟨fun _ => 0, fun _ _ => 0, 0⟩

theorem getFullDescriptor_ofDevice_keyboard :
    ∃ c fuel₀, (∀ fuel ≥ fuel₀, Configuration.ofDevice (.ofBytes (keyboard [] 34).bytes) .zero 0 false
        fuel = .ok c) ∧ c.getFullDescriptor = (keyboard [] 34).bytes := by
  have hv : (keyboard [] 34).Valid := keyboard_valid (fun r hr => by cases hr) rfl
  have hserve : Serves (.ofBytes (keyboard [] 34).bytes) 0 false (keyboard [] 34).bytes :=
    serves_ofBytes (by decide) 0 false
  obtain ⟨c, fuel₀, hfuel, -, hiff⟩ :=
    getFullDescriptor_ofDevice hv (keyboard_regular (by decide)) hserve .zero
  refine ⟨c, fuel₀, hfuel, hiff.2 ⟨rfl, fun sec hsec => ?_⟩⟩
  obtain rfl : sec = ⟨⟨9, 4, 0, 0, 1, 3, 1, 1, 0⟩, [hidDescriptor, endpointDescriptor]⟩ := by
    simpa [keyboard, ConfigBlob.sections] using hsec
  decide

/-- An interface association in front of the interface comes back behind it. -/
theorem getFullDescriptor_ofDevice_not_iad :
    ¬ ∀ (blob : ConfigBlob) (proxy : DeviceProxy) (idx : UInt16) (otherSpeed : Bool) (uninit : Uninit)
      (fuel : ℕ) (c : Configuration), blob.Valid → Serves proxy idx otherSpeed blob.bytes →
      Configuration.ofDevice proxy uninit idx otherSpeed fuel = .ok c →
        c.getFullDescriptor = blob.bytes := by
  intro h
  have hv : (keyboard [iad] 42).Valid := by
    refine keyboard_valid ?_ rfl
    unfold Inner
    decide
  have hr : (keyboard [iad] 42).Regular := keyboard_regular (by decide)
  have hserve : Serves (.ofBytes (keyboard [iad] 42).bytes) 0 false (keyboard [iad] 42).bytes :=
    serves_ofBytes (by decide) 0 false
  obtain ⟨c, hrep, fuel₀, hfuel⟩ := ofDevice_blob hv hr hserve .zero
  have hbytes := h _ _ 0 false .zero fuel₀ c hv hserve (hfuel fuel₀ (Nat.le_refl _))
  rw [hrep.getFullDescriptor hv hr] at hbytes
  exact absurd hbytes (by decide)

end UsbProxy
