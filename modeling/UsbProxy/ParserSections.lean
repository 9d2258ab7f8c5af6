import UsbProxy.ParserProgress
import UsbProxy.Sections

/-!
# What the parsing constructors make of a row of sections

One lemma for each loop: the leading loop collects the descriptors in front of an interface
descriptor (`leading_run`), the section loop files what follows it (`descriptors_run`, by
`Filing.switch` for one descriptor), and the outer loop does so for one section after another
(`sections_run`).
-/

namespace UsbProxy

open Records Iteration

/-- A section an object can hold whole. -/
structure Fits (lead : List Record) (d : UsbInterfaceDescriptor) (rest : List Record) : Prop where
  endpoints : (ofKind .endpoint rest).length = d.bNumEndpoints.toNat
  endpoint_size : ∀ r ∈ ofKind .endpoint rest, r.size = 7
  hid : (ofKind .hid rest).length ≤ 1
  others : lead.length + (ofKind .other rest).length ≤ 255

/-- The object while the section loop has come through `read`. -/
structure Filing (lead : List Record) (d : UsbInterfaceDescriptor) (read : List Record)
    (i : Interface) (ep : ℕ) : Prop where
  descriptor : i.descriptor = d
  endpoints : ∃ eps : List Endpoint,
    i.endpoints = eps.map some ++ List.replicate (d.bNumEndpoints.toNat - eps.length) none ∧
      eps.length = ep ∧ eps.map Endpoint.record = ofKind .endpoint read
  hid : i.hidDescriptor.toList = ofKind .hid read
  others : i.genericDescriptors.entries = lead ++ ofKind .other read

/-- The object holds the section, with `lead` among its other descriptors. -/
structure Filed (lead : List Record) (sec : Section) (i : Interface) : Prop where
  descriptor : i.descriptor = sec.descriptor
  endpoints : ∃ eps : List Endpoint,
    i.endpoints = eps.map some ∧ eps.map Endpoint.record = ofKind .endpoint sec.rest
  hid : i.hidDescriptor.toList = ofKind .hid sec.rest
  others : i.genericDescriptors.entries = lead ++ ofKind .other sec.rest

theorem layout_map_record (eps : List Endpoint) :
    layout (eps.map Endpoint.record) = eps.flatMap Endpoint.getFullDescriptor := by
  unfold layout
  rw [List.flatMap_map]
  rfl

/-- An object that holds a section puts it out arranged. -/
theorem Filed.getFullDescriptor {lead : List Record} {sec : Section} {i : Interface}
    (h : Filed lead sec i) : i.getFullDescriptor = layout (sec.arranged lead) := by
  obtain ⟨eps, heps, hrec⟩ := h.endpoints
  have hred : i.endpoints.reduceOption = eps := by rw [heps, reduceOption_map_some]
  have hends : layout (ofKind .endpoint sec.rest) =
      i.endpoints.reduceOption.flatMap Endpoint.getFullDescriptor := by
    rw [hred, ← hrec, layout_map_record]
  unfold Interface.getFullDescriptor Section.arranged
  rw [h.descriptor, h.hid, h.others, layout_cons, layout_append, layout_append, hends]
  simp only [layout, List.append_assoc]
  rfl

/-! ## Filing one descriptor -/

section Filing

variable {mem : Memory} {lead read rest : List Record} {d : UsbInterfaceDescriptor} {r : Record}
  {p : ℕ}

theorem record_ofMemory (uninit : Memory) (hh : Holds mem p r.bytes) (h7 : r.size = 7) :
    (Endpoint.ofMemory mem uninit p).record = r := by
  have hsize : mem p = 7 := by
    rw [hh.size (by rw [h7]; decide), h7]
  have hlen : r.bytes.length = 7 := by
    rw [r.length_bytes, h7]
    rfl
  apply Record.ext
  rw [Endpoint.bytes_record, Endpoint.getFullDescriptor_of_seven hsize]
  show (UsbEndpointDescriptor.ofMemory mem uninit p).wire = r.bytes
  rw [UsbEndpointDescriptor.wire_ofMemory, ← hlen, copy_of_holds hh]

theorem filing_new {g : GenericDescriptors} (hg : g.entries = lead) (d : UsbInterfaceDescriptor) :
    Filing lead d [] (.new d g) 0 where
  descriptor := rfl
  endpoints := ⟨[], by simp [Interface.new], rfl, rfl⟩
  hid := rfl
  others := by
    show g.entries = _
    rw [hg]
    exact (List.append_nil lead).symm

theorem Filing.setEndpoint {i : Interface} {ep : ℕ} (h : Filing lead d read i ep)
    (hep : ep < d.bNumEndpoints.toNat) (hk : kind r = .endpoint) {x : Endpoint} (hx : x.record = r) :
    Filing lead d (read ++ [r]) (i.setEndpoint ep x) (ep + 1) := by
  obtain ⟨eps, heps, rfl, hrec⟩ := h.endpoints
  refine ⟨h.descriptor, ⟨eps ++ [x], ?_, by simp, ?_⟩, ?_, ?_⟩
  · -- The store hits the first null entry of the array.
    show i.endpoints.set eps.length (some x) = _
    obtain ⟨n, hn⟩ : ∃ n, d.bNumEndpoints.toNat - eps.length = n + 1 :=
      ⟨d.bNumEndpoints.toNat - eps.length - 1, by omega⟩
    rw [heps, List.set_append_right _ _ (by simp), hn, List.replicate_succ, List.length_map,
      Nat.sub_self, List.set_cons_zero, List.map_append, List.append_assoc, List.length_append,
      List.length_singleton, show d.bNumEndpoints.toNat - (eps.length + 1) = n by omega]
    rfl
  · rw [List.map_append, hrec, ofKind_concat_self hk, List.map_singleton, hx]
  · rw [ofKind_concat_ne (by rw [hk]; decide)]
    exact h.hid
  · rw [ofKind_concat_ne (by rw [hk]; decide)]
    exact h.others

theorem Filing.setHid {i : Interface} {ep : ℕ} (h : Filing lead d read i ep) (hk : kind r = .hid)
    (hnone : ofKind .hid read = []) : Filing lead d (read ++ [r]) (i.setHid r) ep := by
  refine ⟨h.descriptor, ?_, ?_, ?_⟩
  · rw [ofKind_concat_ne (by rw [hk]; decide)]
    exact h.endpoints
  · rw [ofKind_concat_self hk, hnone]
    rfl
  · rw [ofKind_concat_ne (by rw [hk]; decide)]
    exact h.others

theorem Filing.addGeneric {i : Interface} {ep : ℕ} (h : Filing lead d read i ep)
    (hk : kind r = .other) (hlen : lead.length + (ofKind .other read).length < 255) :
    ∃ i', i.addGeneric r = some i' ∧ Filing lead d (read ++ [r]) i' ep := by
  obtain ⟨g', hadd, hg'⟩ := GenericDescriptors.add_of_lt (g := i.genericDescriptors) r
    (by rw [h.others, List.length_append]; exact hlen)
  refine ⟨{ i with genericDescriptors := g' }, by rw [Interface.addGeneric, hadd]; rfl, h.descriptor,
    ?_, ?_, ?_⟩
  · rw [ofKind_concat_ne (by rw [hk]; decide)]
    exact h.endpoints
  · rw [ofKind_concat_ne (by rw [hk]; decide)]
    exact h.hid
  · rw [ofKind_concat_self hk, ← List.append_assoc, ← h.others]
    exact hg'

theorem Filing.switch {i : Interface} {ep : ℕ} (h : Filing lead d read i ep)
    (hfit : Fits lead d (read ++ r :: rest)) (hr : 2 ≤ r.size.toNat) (hh : Holds mem p r.bytes)
    (uninit : Memory) :
    ∃ i' ep', i.switch mem uninit p ep = some (i', ep') ∧ Filing lead d (read ++ [r]) i' ep' := by
  have hrec : Record.ofMemory mem p = r := ofMemory_of_holds hh (by omega)
  unfold Interface.switch
  rw [hh.tag hr, hrec]
  by_cases hep : r.tag = USB_DT_ENDPOINT
  · have hk : kind r = .endpoint := if_pos hep
    have hcount := hfit.endpoints
    rw [ofKind_append, ofKind_cons_self hk, List.length_append, List.length_cons] at hcount
    have hlt : ep < d.bNumEndpoints.toNat := by
      obtain ⟨eps, -, rfl, hmap⟩ := h.endpoints
      have hlen := congrArg List.length hmap
      rw [List.length_map] at hlen
      omega
    have hmem : r ∈ ofKind .endpoint (read ++ r :: rest) := by simp [ofKind, hk]
    rw [if_pos hep]
    exact ⟨_, _, rfl, h.setEndpoint hlt hk (record_ofMemory uninit hh (hfit.endpoint_size r hmem))⟩
  · by_cases hhid : r.tag = USB_DT_HID
    · have hk : kind r = .hid := (if_neg hep).trans (if_pos hhid)
      have hone := hfit.hid
      rw [ofKind_append, ofKind_cons_self hk, List.length_append, List.length_cons] at hone
      rw [if_neg hep, if_pos hhid]
      exact ⟨_, _, rfl, h.setHid hk (List.eq_nil_of_length_eq_zero (by omega))⟩
    · have hk : kind r = .other := (if_neg hep).trans (if_neg hhid)
      have hmax := hfit.others
      rw [ofKind_append, ofKind_cons_self hk, List.length_append, List.length_cons] at hmax
      rw [if_neg hep, if_neg hhid]
      obtain ⟨i', hadd, hf⟩ := h.addGeneric hk (by omega)
      exact ⟨i', ep, by rw [hadd]; rfl, hf⟩

end Filing

/-! ## The loops -/

namespace Parser

variable {mem : Memory} {uninit : ℕ → Memory} {e : ℕ} {s : Parser} {lead read rest : List Record}

variable (uninit) in
theorem leading_run {g : GenericDescriptors} (hl : s.loop = .leading g)
    (hh : Holds mem s.p (layout lead)) (hlead : ∀ r ∈ lead, Inner r)
    (hend : s.p + (layout lead).length < e) (hlen : g.entries.length + lead.length ≤ 255) :
    ∃ g' : GenericDescriptors, g'.entries = g.entries ++ lead ∧ Reaches (step mem uninit e) s
      { s with loop := .leading g', p := s.p + (layout lead).length } := by
  induction lead generalizing s g with
  | nil =>
    refine ⟨g, (List.append_nil _).symm, ?_⟩
    rw [← hl]
    exact .refl s
  | cons r lead ih =>
    rw [layout_cons] at hh hend ⊢
    rw [List.length_append] at hend ⊢
    obtain ⟨hr, hrest⟩ := holds_append.1 hh
    obtain ⟨hsize, htag⟩ := hlead r (List.mem_cons_self ..)
    have hne : mem (s.p + 1) ≠ USB_DT_INTERFACE := by rwa [hr.tag hsize]
    have hstep : step mem uninit e s = _ := step_leading hl hne (by omega)
    have hp : s.p + (mem s.p).toNat = s.p + r.bytes.length := by
      rw [hr.size (by omega), r.length_bytes]
    obtain ⟨g₁, hadd, hlen'⟩ := GenericDescriptors.add_of_lt (g := g) r
      (by simp only [List.length_cons] at hlen; omega)
    rw [ofMemory_of_holds hr (by omega), hp, hadd] at hstep
    simp only [Option.getD_some, Option.isNone_some, Bool.or_false] at hstep
    obtain ⟨g', hg', hreach⟩ := ih (s := step mem uninit e s) (g := g₁) (by rw [hstep])
      (by rw [hstep]; exact hrest) (fun x hx => hlead x (List.mem_cons_of_mem _ hx))
      (by rw [hstep]; show s.p + _ + _ < e; omega)
      (by rw [hlen', List.length_append]; simp only [List.length_cons, List.length_nil] at hlen ⊢; omega)
    refine ⟨g', by rw [hg', hlen', List.append_assoc]; rfl, ?_⟩
    rw [hstep] at hreach
    apply Reaches.head
    rw [hstep, ← Nat.add_assoc]
    exact hreach

variable (uninit) in
theorem descriptors_run {d : UsbInterfaceDescriptor} {i : Interface} {ep : ℕ}
    (hl : s.loop = .descriptors i ep) (hf : Filing lead d read i ep)
    (hh : Holds mem s.p (layout rest)) (hrest : ∀ r ∈ rest, Inner r)
    (hend : s.p + (layout rest).length ≤ e) (hfit : Fits lead d (read ++ rest)) :
    ∃ i' ep', Filing lead d (read ++ rest) i' ep' ∧ Reaches (step mem uninit e) s
      { s with loop := .descriptors i' ep', p := s.p + (layout rest).length } := by
  induction rest generalizing s i ep read with
  | nil =>
    refine ⟨i, ep, by rwa [List.append_nil], ?_⟩
    rw [← hl]
    exact .refl s
  | cons r rest ih =>
    rw [layout_cons] at hh hend ⊢
    rw [List.length_append] at hend ⊢
    obtain ⟨hr, htail⟩ := holds_append.1 hh
    obtain ⟨hsize, htag⟩ := hrest r (List.mem_cons_self ..)
    have hpos : 0 < r.bytes.length := by
      rw [r.length_bytes]
      omega
    have hne : mem (s.p + 1) ≠ USB_DT_INTERFACE := by rwa [hr.tag hsize]
    have hstep : step mem uninit e s = _ := step_descriptors hl (by omega) hne
    have hp : s.p + (mem s.p).toNat = s.p + r.bytes.length := by
      rw [hr.size (by omega), r.length_bytes]
    obtain ⟨i₁, ep₁, hswitch, hf₁⟩ := hf.switch hfit hsize hr (uninit s.p)
    rw [hp, hswitch] at hstep
    simp only [Option.getD_some, Option.isNone_some, Bool.or_false] at hstep
    obtain ⟨i', ep', hf', hreach⟩ := ih (s := step mem uninit e s) (by rw [hstep]) hf₁
      (by rw [hstep]; exact htail)
      (fun x hx => hrest x (List.mem_cons_of_mem _ hx)) (by rw [hstep]; show s.p + _ + _ ≤ e; omega)
      (by rwa [List.append_assoc])
    refine ⟨i', ep', by rwa [List.append_assoc] at hf', ?_⟩
    rw [hstep] at hreach
    apply Reaches.head
    rw [hstep, ← Nat.add_assoc]
    exact hreach

theorem Filing.filed {sec : Section} {i : Interface} {ep : ℕ}
    (h : Filing lead sec.descriptor sec.rest i ep)
    (hfit : Fits lead sec.descriptor sec.rest) : Filed lead sec i where
  descriptor := h.descriptor
  endpoints := by
    obtain ⟨eps, heps, -, hrec⟩ := h.endpoints
    have hlen : eps.length = sec.descriptor.bNumEndpoints.toNat := by
      rw [← hfit.endpoints, ← hrec, List.length_map]
    refine ⟨eps, ?_, hrec⟩
    rw [heps, hlen, Nat.sub_self, List.replicate_zero, List.append_nil]
  hid := h.hid
  others := h.others

variable (uninit) in
/-- One iteration of the outer loop takes one section with the descriptors in front of it. -/
theorem section_run {sec : Section} (hl : s.loop = .configuration)
    (hh : Holds mem s.p (layout (lead ++ sec.records))) (hsec : sec.Valid)
    (hlead : ∀ r ∈ lead, Inner r) (hfit : Fits lead sec.descriptor sec.rest)
    (hend : s.p + (layout (lead ++ sec.records)).length ≤ e)
    (hstop : s.p + (layout (lead ++ sec.records)).length < e →
      mem (s.p + (layout (lead ++ sec.records)).length + 1) = USB_DT_INTERFACE) :
    ∃ i, Filed lead sec i ∧ Reaches (step mem uninit e) s
      { s with
        p := s.p + (layout (lead ++ sec.records)).length
        configuration := s.configuration.addInterface i } := by
  have hparts : layout (lead ++ sec.records) = layout lead ++ (sec.head.bytes ++ layout sec.rest) := by
    rw [layout_append, Section.records, layout_cons]
  rw [hparts] at hh hend hstop ⊢
  obtain ⟨hhlead, hh⟩ := holds_append.1 hh
  obtain ⟨hhead, hhrest⟩ := holds_append.1 hh
  have hsize : sec.head.size = 9 := Section.size_head hsec.bLength
  have hnine : sec.head.bytes.length = 9 := by
    rw [sec.head.length_bytes, hsize]
    rfl
  simp only [List.length_append, hnine] at hend hstop ⊢
  -- Up to the interface descriptor.
  have henter : step mem uninit e s = { s with loop := .leading .none } := step_enter hl (by omega)
  obtain ⟨g, hg, hleading⟩ :=
    leading_run uninit (s := { s with loop := .leading .none }) rfl hhlead hlead
      (show s.p + _ < e by omega) (by have := hfit.others; simp; omega)
  -- The interface descriptor.
  have hdesc : Holds mem (s.p + (layout lead).length) sec.descriptor.bytes := by
    rwa [Section.bytes_head hsec.bLength] at hhead
  have htag : mem (s.p + (layout lead).length + 1) = USB_DT_INTERFACE := by
    rw [hhead.tag (by rw [hsize]; decide), Section.tag_head hsec.bLength, hsec.bDescriptorType]
  have hbyte : mem (s.p + (layout lead).length) = 9 := by
    rw [hhead.size (by rw [hsize]; decide), hsize]
  have hinterface : step mem uninit e
      { s with loop := .leading g, p := s.p + (layout lead).length } =
      { s with
        loop := .descriptors (.new sec.descriptor g) 0
        p := s.p + (layout lead).length + 9 } := by
    rw [step_interface rfl (fun h => h.1 htag)]
    show Parser.mk _ (_ + (mem (s.p + (layout lead).length)).toNat) _ _ = _
    rw [UsbInterfaceDescriptor.ofMemory_of_holds _ hdesc hsec.bLength, hbyte]
    rfl
  -- What follows it, up to the next interface descriptor or the end.
  rw [hnine] at hhrest
  obtain ⟨i, ep, hfiling, hdescriptors⟩ :=
    descriptors_run uninit (s := { s with
        loop := .descriptors (.new sec.descriptor g) 0
        p := s.p + (layout lead).length + 9 }) rfl (filing_new (by simpa using hg) sec.descriptor)
      hhrest hsec.rest (show s.p + _ + _ + _ ≤ e by omega) hfit
  have hadd : step mem uninit e
      { s with
        loop := .descriptors i ep
        p := s.p + (layout lead).length + 9 + (layout sec.rest).length } =
      { s with
        p := s.p + (layout lead).length + 9 + (layout sec.rest).length
        configuration := s.configuration.addInterface i } := by
    rw [step_add rfl, hl]
    rintro ⟨hlt, hne⟩
    apply hne
    have hat := hstop (by simp only [] at hlt; omega)
    rwa [show s.p + ((layout lead).length + (9 + (layout sec.rest).length)) =
      s.p + (layout lead).length + 9 + (layout sec.rest).length by omega] at hat
  refine ⟨i, Filing.filed hfiling hfit, ?_⟩
  rw [show s.p + ((layout lead).length + (9 + (layout sec.rest).length)) =
    s.p + (layout lead).length + 9 + (layout sec.rest).length by omega, ← hadd]
  apply Reaches.head
  rw [henter]
  refine hleading.trans (Reaches.head ?_)
  rw [hinterface]
  exact hdescriptors.tail

variable (uninit) in
/-- The outer loop takes one section after another, up to the end. -/
theorem sections_run {secs : List Section} (hl : s.loop = .configuration)
    (hh : Holds mem s.p (layout (lead ++ secs.flatMap Section.records)))
    (hend : s.p + (layout (lead ++ secs.flatMap Section.records)).length = e)
    (hlead : ∀ r ∈ lead, Inner r) (hne : secs = [] → lead = []) (hsecs : ∀ sec ∈ secs, sec.Valid)
    (hfit : ∀ x ∈ withLeading lead secs, Fits x.1 x.2.descriptor x.2.rest) :
    ∃ is, List.Forall₂ (fun x i => Filed x.1 x.2 i) (withLeading lead secs) is ∧
      Reaches (step mem uninit e) s
        { s with p := e, configuration := is.foldl Configuration.addInterface s.configuration } := by
  induction secs generalizing s lead with
  | nil =>
    obtain rfl := hne rfl
    obtain rfl : s.p = e := hend
    exact ⟨[], .nil, .refl s⟩
  | cons sec secs ih =>
    have hparts : layout (lead ++ (sec :: secs).flatMap Section.records) =
        layout (lead ++ sec.records) ++ layout (secs.flatMap Section.records) := by
      rw [List.flatMap_cons, ← List.append_assoc, layout_append]
    rw [hparts, List.length_append] at hend
    rw [hparts] at hh
    obtain ⟨hhsec, hhsecs⟩ := holds_append.1 hh
    have hfits : ∀ x ∈ withLeading [] secs, Fits x.1 x.2.descriptor x.2.rest := fun x hx =>
      hfit x (by rw [withLeading_cons]; exact List.mem_cons_of_mem _ hx)
    -- Whatever follows the section begins with an interface descriptor.
    have hstop : s.p + (layout (lead ++ sec.records)).length < e →
        mem (s.p + (layout (lead ++ sec.records)).length + 1) = USB_DT_INTERFACE := by
      intro hlt
      cases secs with
      | nil =>
        rw [List.flatMap_nil, layout_nil, List.length_nil] at hend
        omega
      | cons sec' secs =>
        have hsec' : sec'.Valid := hsecs sec' (by simp)
        have hsize : 2 ≤ sec'.head.size.toNat := by
          rw [Section.size_head hsec'.bLength]
          decide
        have hnext : Holds mem (s.p + (layout (lead ++ sec.records)).length) sec'.head.bytes :=
          (holds_append.1 hhsecs).1
        rw [hnext.tag hsize, Section.tag_head hsec'.bLength, hsec'.bDescriptorType]
    obtain ⟨i, hi, hreach⟩ := section_run uninit hl hhsec (hsecs sec (by simp)) hlead
      (hfit (lead, sec) (by rw [withLeading_cons]; exact List.mem_cons_self ..)) (by omega) hstop
    obtain ⟨is, his, hrest⟩ :=
      ih (s := { s with
        p := s.p + (layout (lead ++ sec.records)).length
        configuration := s.configuration.addInterface i }) hl hhsecs (by rw [← hend]; exact Nat.add_assoc ..)
        (by simp) (fun _ => rfl) (fun x hx => hsecs x (List.mem_cons_of_mem _ hx)) hfits
    refine ⟨i :: is, ?_, hreach.trans hrest⟩
    rw [withLeading_cons]
    exact .cons hi his

end Parser

end UsbProxy
