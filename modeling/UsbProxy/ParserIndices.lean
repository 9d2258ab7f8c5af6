import UsbProxy.ParserProgress
import UsbProxy.Sections

/-!
# The indices of the parsing constructors

`add_interface` takes an interface's number as an index into `interfaceGroups`, the section loop of
`Interface` stores its n-th endpoint in slot n, and the last loop of `Configuration` follows the group
of every index.  How long the two arrays are is up to counts in other descriptors.  `indexSafe_iff`
says for which rows of descriptors every index stays inside and every group is there.
-/

namespace UsbProxy

open Records Iteration

/-! ## Rows of descriptors -/

/-- The structure a record of nine bytes is copied to. -/
def interfaceDescriptor (r : Record) : UsbInterfaceDescriptor :=
  .ofMemory (Memory.ofBuffer r.bytes fun _ => 0) (fun _ => 0) 0

/-- The descriptors up to the next interface descriptor. -/
def untilInterface (rs : List Record) : List Record := rs.takeWhile fun r => r.tag ≠ USB_DT_INTERFACE

/-- The interface descriptors of a row, each with the descriptors that follow it. -/
def sectionsOf : List Record → List Section
  | [] => []
  | r :: rs =>
    if r.tag = USB_DT_INTERFACE then ⟨interfaceDescriptor r, untilInterface rs⟩ :: sectionsOf rs
    else sectionsOf rs

/-- What every descriptor of a row has: a length byte of at least two, and of nine if it is an
interface descriptor. -/
def Tiled (rs : List Record) : Prop :=
  ∀ r ∈ rs, 2 ≤ r.size.toNat ∧ (r.tag = USB_DT_INTERFACE → r.size = 9)

theorem Tiled.uncons {mem : Memory} {p e : ℕ} {r : Record} {rs : List Record} (ht : Tiled (r :: rs))
    (hh : Holds mem p (layout (r :: rs))) (hend : p + (layout (r :: rs)).length = e) :
    (Holds mem p r.bytes ∧ 2 ≤ r.size.toNat ∧ p < e) ∧ Holds mem (p + r.bytes.length) (layout rs) ∧
      p + r.bytes.length + (layout rs).length = e ∧ Tiled rs := by
  rw [layout_cons] at hh hend
  rw [List.length_append] at hend
  obtain ⟨hr, hrest⟩ := holds_append.1 hh
  have hsize := (ht r List.mem_cons_self).1
  have hpos : 0 < r.bytes.length := by
    rw [r.length_bytes]
    omega
  exact ⟨⟨hr, hsize, by omega⟩, hrest, by omega, fun x hx => ht x (List.mem_cons_of_mem r hx)⟩

/-- A header with descriptors that tile the rest of the buffer. -/
structure Chain where
  header : UsbConfigDescriptor
  records : List Record
  tiled : Tiled records

namespace Chain

def bytes (c : Chain) : List Byte := c.header.bytes ++ layout c.records

def sections (c : Chain) : List Section := sectionsOf c.records

end Chain

theorem sectionsOf_interface {r : Record} (h : r.tag = USB_DT_INTERFACE) (rs : List Record) :
    sectionsOf (r :: rs) = ⟨interfaceDescriptor r, untilInterface rs⟩ :: sectionsOf rs := if_pos h

theorem sectionsOf_inner {r : Record} (h : r.tag ≠ USB_DT_INTERFACE) (rs : List Record) :
    sectionsOf (r :: rs) = sectionsOf rs := if_neg h

theorem untilInterface_interface {r : Record} (h : r.tag = USB_DT_INTERFACE) (rs : List Record) :
    untilInterface (r :: rs) = [] := List.takeWhile_cons_of_neg (by simpa using h)

theorem untilInterface_inner {r : Record} (h : r.tag ≠ USB_DT_INTERFACE) (rs : List Record) :
    untilInterface (r :: rs) = r :: untilInterface rs := List.takeWhile_cons_of_pos (by simpa using h)

/-- Nine bytes of memory are all that `ofMemory` looks at when the first is nine. -/
theorem ofMemory_of_holds_record {mem : Memory} (uninit : Memory) {p : ℕ} {r : Record}
    (h : Holds mem p r.bytes) (h9 : r.size = 9) :
    UsbInterfaceDescriptor.ofMemory mem uninit p = interfaceDescriptor r := by
  have hlen : r.bytes.length = 9 := by
    rw [r.length_bytes, h9]
    rfl
  have hb : ∀ i < 9, mem (p + i) = Memory.ofBuffer r.bytes (fun _ => 0) (0 + i) := fun i hi => by
    rw [h i (by omega), holds_ofBuffer r.bytes _ i (by omega)]
  have hp : mem p = 9 := (h.size (by rw [h9]; decide)).trans h9
  have h0 : Memory.ofBuffer r.bytes (fun _ => 0) 0 = 9 := (hb 0 (by omega)).symm.trans hp
  unfold interfaceDescriptor UsbInterfaceDescriptor.ofMemory
  have hnine : (9 : Byte).toNat = 9 := rfl
  simp only [hp, h0, hnine, show (0 : ℕ) < 9 by omega, show (1 : ℕ) < 9 by omega,
    show (2 : ℕ) < 9 by omega, show (3 : ℕ) < 9 by omega, show (4 : ℕ) < 9 by omega,
    show (5 : ℕ) < 9 by omega, show (6 : ℕ) < 9 by omega, show (7 : ℕ) < 9 by omega,
    show (8 : ℕ) < 9 by omega, if_true]
  rw [hb 0 (by omega), hb 1 (by omega), hb 2 (by omega), hb 3 (by omega), hb 4 (by omega),
    hb 5 (by omega), hb 6 (by omega), hb 7 (by omega), hb 8 (by omega),
    show Memory.ofBuffer r.bytes (fun _ => 0) (0 + 0) = 9 from h0]

/-! ## Indices and groups -/

/-- There is a group at the index. -/
def Configuration.Filled (c : Configuration) (k : ℕ) : Prop :=
  ∃ g, c.interfaceGroups[k]? = some (some g)

theorem Configuration.not_filled_new (d : UsbConfigDescriptor) (k : ℕ) : ¬ (new d).Filled k := by
  rintro ⟨g, hg⟩
  simp [new, List.getElem?_replicate] at hg

theorem Configuration.filled_addInterface (c : Configuration) (i : Interface) (k : ℕ) :
    (c.addInterface i).Filled k ↔
      c.Filled k ∨ k < c.descriptor.bNumInterfaces.toNat ∧ i.descriptor.bInterfaceNumber.toNat = k := by
  unfold Filled addInterface
  simp only [List.getElem?_modify, ← c.groups_length]
  by_cases hk : i.descriptor.bInterfaceNumber.toNat = k
  · by_cases hlt : k < c.interfaceGroups.length
    · simp [hk, hlt]
    · simp [hk, hlt]
  · simp [hk]

@[simp] theorem Configuration.descriptor_addInterface (c : Configuration) (i : Interface) :
    (c.addInterface i).descriptor = c.descriptor := rfl

namespace Parser

variable {mem : Memory} {uninit : ℕ → Memory} {e : ℕ} {s : Parser} {rs : List Record}

/-- Every index the step from `s` uses is inside its array: the slot of a stored endpoint, the number
`add_interface` is called with. -/
def IndicesInside (mem : Memory) (e : ℕ) (s : Parser) : Prop :=
  match s.loop with
  | .descriptors i ep =>
    if s.p < e ∧ mem (s.p + 1) ≠ USB_DT_INTERFACE then
      mem (s.p + 1) = USB_DT_ENDPOINT → ep < i.descriptor.bNumEndpoints.toNat
    else i.descriptor.bInterfaceNumber.toNat < s.configuration.descriptor.bNumInterfaces.toNat
  | .configuration | .leading _ | .done => True

/-- While `Configuration` parses the buffer every index is inside its array and every group followed
exists, whatever memory holds beside the buffer and the device answers to GET_INTERFACE. -/
def IndexSafe (buf : List Byte) : Prop :=
  ∀ (proxy : DeviceProxy) (u : Uninit) (n : ℕ),
    let mem := Memory.ofBuffer buf u.buffer
    let s := after mem u.object buf.length n
    IndicesInside mem buf.length s ∧ Configuration.finish proxy u.result s ≠ .error .crash

end Parser

/-- The indices a section asks for are inside. -/
structure Section.Inside (sec : Section) (bNumInterfaces : Byte) : Prop where
  number : sec.descriptor.bInterfaceNumber.toNat < bNumInterfaces.toNat
  endpoints : (ofKind .endpoint sec.rest).length ≤ sec.descriptor.bNumEndpoints.toNat

/-- Counts and contents agree as far as indices go. -/
structure Chain.Consistent (c : Chain) : Prop where
  interface : c.records ≠ [] → c.sections ≠ []
  inside : ∀ sec ∈ c.sections, sec.Inside c.header.bNumInterfaces
  complete : ∀ k < c.header.bNumInterfaces.toNat,
    ∃ sec ∈ c.sections, sec.descriptor.bInterfaceNumber.toNat = k

/-! ## The walk -/

namespace Parser

variable {mem : Memory} {uninit : ℕ → Memory} {e : ℕ} {s : Parser} {rs : List Record}

/-- What becomes of the walk from `s`: under which condition its indices are inside, and which groups
it adds before it ends. -/
structure Walk (mem : Memory) (uninit : ℕ → Memory) (e : ℕ) (s : Parser) (safe : Prop)
    (added : ℕ → Prop) : Prop where
  safe_iff : Always (step mem uninit e) (IndicesInside mem e) s ↔ safe
  ends : ∃ t, Reaches (step mem uninit e) s t ∧ t.loop = .done ∧
    ∀ k, t.configuration.Filled k ↔ s.configuration.Filled k ∨ added k

section Walk

variable {t : Parser} {safe safe' : Prop} {added added' : ℕ → Prop}

theorem Walk.congr (h : Walk mem uninit e s safe added) (hsafe : safe ↔ safe')
    (hadded : ∀ k, added k ↔ added' k) : Walk mem uninit e s safe' added' where
  safe_iff := h.safe_iff.trans hsafe
  ends := by
    obtain ⟨t, ht, hdone, hfilled⟩ := h.ends
    exact ⟨t, ht, hdone, fun k => (hfilled k).trans (or_congr_right (hadded k))⟩

theorem Walk.head (h : Walk mem uninit e t safe added) (hstep : step mem uninit e s = t)
    (hconf : t.configuration = s.configuration) :
    Walk mem uninit e s (IndicesInside mem e s ∧ safe) added where
  safe_iff := by
    rw [always_iff, hstep]
    exact and_congr_right fun _ => h.safe_iff
  ends := by
    obtain ⟨u, hu, hdone, hfilled⟩ := h.ends
    rw [hconf] at hfilled
    exact ⟨u, Reaches.head (hstep ▸ hu), hdone, hfilled⟩

theorem Walk.head_of_inside (h : Walk mem uninit e t safe added) (hstep : step mem uninit e s = t)
    (hconf : t.configuration = s.configuration) (hs : IndicesInside mem e s) :
    Walk mem uninit e s safe added :=
  (h.head hstep hconf).congr (and_iff_right hs) fun _ => Iff.rfl

theorem walk_end (hl : s.loop = .configuration) (hp : ¬ s.p < e) :
    Walk mem uninit e s True (fun _ => False) := by
  have hdone : Walk mem uninit e { s with loop := .done } True (fun _ => False) :=
    { safe_iff := by
        rw [always_of_fixed (step_done rfl)]
        exact iff_of_true trivial trivial
      ends := ⟨_, .refl _, rfl, fun k => (or_false _).to_iff.symm⟩ }
  exact hdone.head_of_inside (step_leave hl hp) rfl (by simp [IndicesInside, hl])

theorem walk_enter (hl : s.loop = .configuration) (hp : s.p < e)
    (h : Walk mem uninit e { s with loop := .leading .none } safe added) :
    Walk mem uninit e s safe added :=
  h.head_of_inside (step_enter hl hp) rfl (by simp [IndicesInside, hl])

/-- The leading loop at an interface descriptor: the object gets its structure and its arrays. -/
theorem walk_begin {g : GenericDescriptors} {r : Record} (hl : s.loop = .leading g)
    (hr : Holds mem s.p r.bytes) (ht : r.tag = USB_DT_INTERFACE) (h9 : r.size = 9)
    (h : Walk mem uninit e
      { s with
        loop := .descriptors (.new (interfaceDescriptor r) g) 0, p := s.p + r.bytes.length }
      safe added) :
    Walk mem uninit e s safe added := by
  have hmem : mem (s.p + 1) = USB_DT_INTERFACE := (hr.tag (by rw [h9]; decide)).trans ht
  refine h.head_of_inside ?_ rfl (by simp [IndicesInside, hl])
  rw [step_interface hl (fun h => h.1 hmem), ofMemory_of_holds_record _ hr h9,
    hr.size (by rw [h9]; decide), r.length_bytes]

theorem walk_add {i : Interface} {ep : ℕ} (hl : s.loop = .descriptors i ep)
    (hstop : ¬ (s.p < e ∧ mem (s.p + 1) ≠ USB_DT_INTERFACE))
    (h : Walk mem uninit e
      { s with loop := .configuration, configuration := s.configuration.addInterface i } safe added) :
    Walk mem uninit e s
      (i.descriptor.bInterfaceNumber.toNat < s.configuration.descriptor.bNumInterfaces.toNat ∧ safe)
      (fun k => (k < s.configuration.descriptor.bNumInterfaces.toNat ∧
        i.descriptor.bInterfaceNumber.toNat = k) ∨ added k) where
  safe_iff := by
    rw [always_iff, step_add hl hstop, h.safe_iff]
    apply and_congr_left
    intro _
    simp only [IndicesInside, hl, if_neg hstop]
  ends := by
    obtain ⟨t, ht, hdone, hfilled⟩ := h.ends
    refine ⟨t, Reaches.head (by rwa [step_add hl hstop]), hdone, fun k => ?_⟩
    rw [hfilled k, Configuration.filled_addInterface, or_assoc]

end Walk

@[simp] theorem descriptor_switch (i : Interface) (u : Memory) (p ep : ℕ) :
    ((i.switch mem u p ep).getD (i, ep)).1.descriptor = i.descriptor := by
  unfold Interface.switch
  by_cases hep : mem (p + 1) = USB_DT_ENDPOINT
  · rw [if_pos hep]
    rfl
  · by_cases hhid : mem (p + 1) = USB_DT_HID
    · rw [if_neg hep, if_pos hhid]
      rfl
    · rw [if_neg hep, if_neg hhid]
      unfold Interface.addGeneric
      cases i.genericDescriptors.add (.ofMemory mem p) <;> rfl

theorem switch_slot (i : Interface) (u : Memory) (p ep : ℕ) :
    ((i.switch mem u p ep).getD (i, ep)).2 = if mem (p + 1) = USB_DT_ENDPOINT then ep + 1 else ep := by
  unfold Interface.switch
  by_cases hep : mem (p + 1) = USB_DT_ENDPOINT
  · rw [if_pos hep, if_pos hep]
    rfl
  · by_cases hhid : mem (p + 1) = USB_DT_HID
    · rw [if_neg hep, if_neg hep, if_pos hhid]
      rfl
    · rw [if_neg hep, if_neg hep, if_neg hhid]
      cases i.addGeneric (.ofMemory mem p) <;> rfl

/-- The groups a list of sections asks for. -/
def Adds (n : Byte) (secs : List Section) (k : ℕ) : Prop :=
  k < n.toNat ∧ ∃ sec ∈ secs, sec.descriptor.bInterfaceNumber.toNat = k

theorem adds_cons {n : Byte} {sec : Section} {secs : List Section} {k : ℕ} :
    Adds n (sec :: secs) k ↔
      (k < n.toNat ∧ sec.descriptor.bInterfaceNumber.toNat = k) ∨ Adds n secs k := by
  unfold Adds
  rw [← and_or_left]
  apply and_congr_right
  intro _
  simp

/-- What the section loop needs that stands at slot `ep` in front of the descriptors `rs`. -/
structure Rest (n : Byte) (d : UsbInterfaceDescriptor) (ep : ℕ) (rs : List Record) : Prop where
  endpoints : (ofKind .endpoint (untilInterface rs)).length = 0 ∨
    ep + (ofKind .endpoint (untilInterface rs)).length ≤ d.bNumEndpoints.toNat
  number : d.bInterfaceNumber.toNat < n.toNat
  sections : ∀ sec ∈ sectionsOf rs, sec.Inside n

section Rest

variable {n : Byte} {d d' : UsbInterfaceDescriptor} {ep : ℕ} {r : Record}

theorem rest_nil : Rest n d ep [] ↔ d.bInterfaceNumber.toNat < n.toNat :=
  ⟨Rest.number, fun h => ⟨.inl rfl, h, by simp [sectionsOf]⟩⟩

theorem rest_inner (ht : r.tag ≠ USB_DT_INTERFACE) :
    Rest n d ep (r :: rs) ↔ (r.tag = USB_DT_ENDPOINT → ep < d.bNumEndpoints.toNat) ∧
      Rest n d (if r.tag = USB_DT_ENDPOINT then ep + 1 else ep) rs := by
  by_cases h : r.tag = USB_DT_ENDPOINT
  · have hk : kind r = .endpoint := if_pos h
    have hlen : (ofKind .endpoint (untilInterface (r :: rs))).length =
        (ofKind .endpoint (untilInterface rs)).length + 1 := by
      rw [untilInterface_inner ht, ofKind_cons_self hk, List.length_cons]
    rw [if_pos h]
    constructor
    · rintro ⟨hle, hnum, hsecs⟩
      rw [hlen] at hle
      rw [sectionsOf_inner ht] at hsecs
      exact ⟨fun _ => by omega, .inr (by omega), hnum, hsecs⟩
    · rintro ⟨hlt, hle, hnum, hsecs⟩
      refine ⟨.inr ?_, hnum, by rwa [sectionsOf_inner ht]⟩
      have := hlt h
      omega
  · have hk : kind r ≠ .endpoint := by
      intro hk
      unfold kind at hk
      rw [if_neg h] at hk
      split_ifs at hk
    have hkeep : ofKind .endpoint (untilInterface (r :: rs)) =
        ofKind .endpoint (untilInterface rs) := by
      rw [untilInterface_inner ht]
      exact List.filter_cons_of_neg (by simpa using hk)
    rw [if_neg h]
    constructor
    · rintro ⟨hle, hnum, hsecs⟩
      rw [hkeep] at hle
      rw [sectionsOf_inner ht] at hsecs
      exact ⟨fun hr => absurd hr h, hle, hnum, hsecs⟩
    · rintro ⟨-, hle, hnum, hsecs⟩
      exact ⟨by rwa [hkeep], hnum, by rwa [sectionsOf_inner ht]⟩

theorem rest_zero : Rest n d 0 rs ↔
    Section.Inside ⟨d, untilInterface rs⟩ n ∧ ∀ sec ∈ sectionsOf rs, sec.Inside n := by
  constructor
  · rintro ⟨hle, hnum, hsecs⟩
    refine ⟨⟨hnum, hle.elim (fun h => ?_) (by rw [Nat.zero_add]; exact id)⟩, hsecs⟩
    rw [h]
    exact Nat.zero_le _
  · rintro ⟨⟨hnum, hle⟩, hsecs⟩
    exact ⟨.inr (by rw [Nat.zero_add]; exact hle), hnum, hsecs⟩

theorem rest_interface (ht : r.tag = USB_DT_INTERFACE) :
    Rest n d ep (r :: rs) ↔
      d.bInterfaceNumber.toNat < n.toNat ∧ Rest n (interfaceDescriptor r) 0 rs := by
  have hsecs : (∀ sec ∈ sectionsOf (r :: rs), sec.Inside n) ↔ Rest n (interfaceDescriptor r) 0 rs := by
    rw [rest_zero, sectionsOf_interface ht]
    exact List.forall_mem_cons
  rw [← hsecs]
  constructor
  · exact fun h => ⟨h.number, h.sections⟩
  · rintro ⟨hnum, hin⟩
    exact ⟨.inl (by rw [untilInterface_interface ht]; rfl), hnum, hin⟩

end Rest

variable (uninit) in
theorem walk_descriptors {i : Interface} {ep : ℕ} (hl : s.loop = .descriptors i ep)
    (hh : Holds mem s.p (layout rs)) (hend : s.p + (layout rs).length = e) (ht : Tiled rs) :
    Walk mem uninit e s (Rest s.configuration.descriptor.bNumInterfaces i.descriptor ep rs)
      (Adds s.configuration.descriptor.bNumInterfaces
        (⟨i.descriptor, untilInterface rs⟩ :: sectionsOf rs)) := by
  induction rs generalizing s i ep with
  | nil =>
    have hp : ¬ s.p < e := by
      rw [layout_nil, List.length_nil] at hend
      omega
    have hstop : ¬ (s.p < e ∧ mem (s.p + 1) ≠ USB_DT_INTERFACE) := fun h => hp h.1
    refine (walk_add hl hstop (walk_end rfl hp)).congr ?_ fun k => ?_
    · rw [rest_nil, and_true]
    · rw [adds_cons]
      simp [Adds, sectionsOf]
  | cons r rs ih =>
    obtain ⟨⟨hr, hsize, hp⟩, hrest, hend', htiled⟩ := ht.uncons hh hend
    have hnine := (ht r List.mem_cons_self).2
    by_cases htag : r.tag = USB_DT_INTERFACE
    · -- The object is stored, and the next one begins with this descriptor.
      have hmem : mem (s.p + 1) = USB_DT_INTERFACE := (hr.tag hsize).trans htag
      have hstop : ¬ (s.p < e ∧ mem (s.p + 1) ≠ USB_DT_INTERFACE) := fun h => h.2 hmem
      have hnext := walk_begin (s := { s with
          loop := .leading .none, configuration := s.configuration.addInterface i }) rfl hr htag
        (hnine htag) (ih (s := { s with
          loop := .descriptors (.new (interfaceDescriptor r) .none) 0, p := s.p + r.bytes.length
          configuration := s.configuration.addInterface i }) rfl hrest
        hend' htiled)
      refine (walk_add hl hstop (walk_enter rfl hp hnext)).congr
        (rest_interface htag).symm fun k => ?_
      rw [sectionsOf_interface htag, adds_cons, adds_cons, adds_cons]
      exact Iff.rfl
    · have hmem : mem (s.p + 1) ≠ USB_DT_INTERFACE := by rwa [hr.tag hsize]
      have hstep : step mem uninit e s = _ := step_descriptors hl hp hmem
      rw [hr.size (by omega), ← r.length_bytes] at hstep
      have hinside : IndicesInside mem e s ↔
          (r.tag = USB_DT_ENDPOINT → ep < i.descriptor.bNumEndpoints.toNat) := by
        unfold IndicesInside
        rw [hl, ← hr.tag hsize]
        exact iff_of_eq (if_pos ⟨hp, hmem⟩)
      have hwalk := ih (s := { s with
          loop := .descriptors ((i.switch mem (uninit s.p) s.p ep).getD (i, ep)).1
            ((i.switch mem (uninit s.p) s.p ep).getD (i, ep)).2
          p := s.p + r.bytes.length
          crashed := s.crashed || (i.switch mem (uninit s.p) s.p ep).isNone }) rfl hrest hend' htiled
      refine (hwalk.head hstep rfl).congr ?_ fun k => ?_
      · rw [hinside, rest_inner htag, descriptor_switch, switch_slot, hr.tag hsize]
      · rw [descriptor_switch, sectionsOf_inner htag, adds_cons, adds_cons]

variable (uninit) in
/-- The leading loop at a descriptor of another kind moves on. -/
theorem step_lead {g : GenericDescriptors} {r : Record} (hl : s.loop = .leading g)
    (hr : Holds mem s.p r.bytes) (hsize : 2 ≤ r.size.toNat) (htag : r.tag ≠ USB_DT_INTERFACE)
    (hp : s.p < e) :
    ∃ g' crashed, step mem uninit e s =
      { s with loop := .leading g', p := s.p + r.bytes.length, crashed } := by
  refine ⟨(g.add (.ofMemory mem s.p)).getD g, s.crashed || (g.add (.ofMemory mem s.p)).isNone, ?_⟩
  rw [step_leading hl (by rwa [hr.tag hsize]) hp, hr.size (by omega), r.length_bytes]

variable (uninit) in
/-- The leading loop with an interface descriptor in front of it. -/
theorem walk_leading {g : GenericDescriptors} (hl : s.loop = .leading g)
    (hh : Holds mem s.p (layout rs)) (hend : s.p + (layout rs).length = e) (ht : Tiled rs)
    (hsecs : sectionsOf rs ≠ []) :
    Walk mem uninit e s (∀ sec ∈ sectionsOf rs, sec.Inside s.configuration.descriptor.bNumInterfaces)
      (Adds s.configuration.descriptor.bNumInterfaces (sectionsOf rs)) := by
  induction rs generalizing s g with
  | nil => exact absurd rfl hsecs
  | cons r rs ih =>
    obtain ⟨⟨hr, hsize, hp⟩, hrest, hend', htiled⟩ := ht.uncons hh hend
    have hnine := (ht r List.mem_cons_self).2
    by_cases htag : r.tag = USB_DT_INTERFACE
    · have hwalk := walk_descriptors uninit (s := { s with
          loop := .descriptors (.new (interfaceDescriptor r) g) 0, p := s.p + r.bytes.length }) rfl
        hrest hend' htiled
      refine (walk_begin hl hr htag (hnine htag) hwalk).congr ?_ fun k => ?_
      · rw [rest_zero, sectionsOf_interface htag, List.forall_mem_cons]
        exact Iff.rfl
      · rw [sectionsOf_interface htag]
        rfl
    · obtain ⟨g', crashed, hstep⟩ := step_lead uninit hl hr hsize htag hp
      rw [sectionsOf_inner htag] at hsecs ⊢
      exact (ih (s := { s with loop := .leading g', p := s.p + r.bytes.length, crashed }) rfl hrest
        hend' htiled hsecs).head_of_inside hstep rfl
          (by simp [IndicesInside, hl])

variable (uninit) in
theorem leading_end {g : GenericDescriptors} (hl : s.loop = .leading g)
    (hh : Holds mem s.p (layout rs)) (hend : s.p + (layout rs).length = e) (ht : Tiled rs)
    (hsecs : sectionsOf rs = []) :
    ∃ g' crashed, Reaches (step mem uninit e) s { s with loop := .leading g', p := e, crashed } := by
  induction rs generalizing s g with
  | nil =>
    obtain rfl : s.p = e := hend
    refine ⟨g, s.crashed, ?_⟩
    rw [← hl]
    exact .refl s
  | cons r rs ih =>
    obtain ⟨⟨hr, hsize, hp⟩, hrest, hend', htiled⟩ := ht.uncons hh hend
    have htag : r.tag ≠ USB_DT_INTERFACE := by
      intro htag
      rw [sectionsOf_interface htag] at hsecs
      cases hsecs
    obtain ⟨g', crashed, hstep⟩ := step_lead uninit hl hr hsize htag hp
    rw [sectionsOf_inner htag] at hsecs
    obtain ⟨g'', crashed', hreach⟩ :=
      ih (s := { s with loop := .leading g', p := s.p + r.bytes.length, crashed }) rfl hrest hend' htiled
        hsecs
    exact ⟨g'', crashed', Reaches.head (by rw [hstep]; exact hreach)⟩

/-! ## The last loop -/

/-- A null group crashes the loop when the device answers the requests before it. -/
theorem activeAlternates_crash {proxy : DeviceProxy} (hproxy : ∀ n r, proxy.controlRequest n r ≠ none)
    (result : Byte) (n i : ℕ) {groups : List (Option InterfaceGroup)} (h : none ∈ groups) :
    Configuration.activeAlternates proxy result n i groups = .error .crash := by
  induction groups generalizing n i with
  | nil => cases h
  | cons group groups ih =>
    cases group with
    | none => rfl
    | some g =>
      have htail : none ∈ groups := by simpa using h
      unfold Configuration.activeAlternates
      by_cases hone : g.alternateCount = 1
      · rw [if_pos hone, ih n (i + 1) htail]
        rfl
      · obtain ⟨bs, hbs⟩ := Option.ne_none_iff_exists'.1
          (hproxy n (Configuration.getInterfaceRequest i))
        have hrequest : Configuration.request proxy n (Configuration.getInterfaceRequest i) =
            .ok bs := by
          unfold Configuration.request
          rw [hbs]
          rfl
        rw [if_neg hone, hrequest, ih (n + 1) (i + 1) htail]
        rfl

/-- With every group there the loop does not crash. -/
theorem activeAlternates_ne_crash (proxy : DeviceProxy) (result : Byte) (n i : ℕ)
    {groups : List (Option InterfaceGroup)} (h : none ∉ groups) :
    Configuration.activeAlternates proxy result n i groups ≠ .error .crash := by
  induction groups generalizing n i with
  | nil => simp [Configuration.activeAlternates, pure, Except.pure]
  | cons group groups ih =>
    cases group with
    | none => exact absurd (List.mem_cons_self ..) h
    | some g =>
      have htail : none ∉ groups := fun hm => h (List.mem_cons_of_mem _ hm)
      unfold Configuration.activeAlternates
      by_cases hone : g.alternateCount = 1
      · rw [if_pos hone]
        have hrest := ih n (i + 1) htail
        cases hr : Configuration.activeAlternates proxy result n (i + 1) groups with
        | error stop =>
          rw [hr] at hrest
          simpa [bind, Except.bind] using hrest
        | ok rest => simp [bind, Except.bind, pure, Except.pure]
      · rw [if_neg hone]
        have hrest := ih (n + 1) (i + 1) htail
        cases hq : Configuration.request proxy n (Configuration.getInterfaceRequest i) with
        | error stop =>
          have hexit : stop = .exit := by
            unfold Configuration.request at hq
            cases hc : proxy.controlRequest n (Configuration.getInterfaceRequest i) with
            | none =>
              rw [hc] at hq
              exact (Except.error.inj hq).symm
            | some bs =>
              rw [hc] at hq
              cases hq
          simp [bind, Except.bind, hexit]
        | ok bs =>
          cases hr : Configuration.activeAlternates proxy result (n + 1) (i + 1) groups with
          | error stop =>
            rw [hr] at hrest
            simpa [bind, Except.bind] using hrest
          | ok rest => simp [bind, Except.bind, pure, Except.pure]

theorem descriptor_step (s : Parser) :
    (step mem uninit e s).configuration.descriptor = s.configuration.descriptor := by
  unfold step
  rcases hl : s.loop with _ | g | ⟨i, ep⟩ | _
  · by_cases hp : s.p < e <;> simp [hp]
  · by_cases h : mem (s.p + 1) ≠ USB_DT_INTERFACE ∧ s.p < e <;> simp [h]
  · by_cases h : s.p < e ∧ mem (s.p + 1) ≠ USB_DT_INTERFACE <;> simp [h]
  · rfl

theorem none_notMem_iff (c : Configuration) :
    none ∉ c.interfaceGroups ↔ ∀ k < c.descriptor.bNumInterfaces.toNat, c.Filled k := by
  rw [← c.groups_length]
  constructor
  · intro h k hk
    obtain ⟨g, hg⟩ := Option.ne_none_iff_exists'.1
      (show c.interfaceGroups[k] ≠ none from fun h0 => h (h0 ▸ List.getElem_mem hk))
    exact ⟨g, by rw [List.getElem?_eq_getElem hk, hg]⟩
  · intro h hmem
    obtain ⟨k, hk, h0⟩ := List.getElem_of_mem hmem
    obtain ⟨g, hg⟩ := h k hk
    rw [List.getElem?_eq_getElem hk, h0] at hg
    cases hg

/-! ## Chains -/

/-- A device that answers every request with nothing. -/
def silent : DeviceProxy where
  controlRequest _ _ := some []
  length_le h := by
    cases h
    exact Nat.zero_le _

section Chain

variable {c : Chain}

theorem holds_chain (c : Chain) (beyond : Memory) :
    Holds (Memory.ofBuffer c.bytes beyond) 0 c.header.bytes ∧
      Holds (Memory.ofBuffer c.bytes beyond) 9 (layout c.records) := by
  have h := holds_append.1 (holds_ofBuffer c.bytes beyond)
  rwa [UsbConfigDescriptor.length_bytes, Nat.zero_add] at h

theorem configuration_init (c : Chain) (beyond : Memory) :
    (init (Memory.ofBuffer c.bytes beyond)).configuration = .new c.header :=
  congrArg Configuration.new (UsbConfigDescriptor.ofMemory_of_holds (holds_chain c beyond).1)

theorem length_bytes_chain (c : Chain) : c.bytes.length = 9 + (layout c.records).length :=
  List.length_append

/-- The walk over a chain that has an interface descriptor if it has anything. -/
theorem walk_chain (hint : c.records ≠ [] → c.sections ≠ []) (u : Uninit) :
    Walk (Memory.ofBuffer c.bytes u.buffer) u.object c.bytes.length
      (init (Memory.ofBuffer c.bytes u.buffer))
      (∀ sec ∈ c.sections, sec.Inside c.header.bNumInterfaces)
      (Adds c.header.bNumInterfaces c.sections) := by
  have hlen := length_bytes_chain c
  have hbn : (init (Memory.ofBuffer c.bytes u.buffer)).configuration.descriptor = c.header :=
    congrArg Configuration.descriptor (configuration_init c u.buffer)
  by_cases hrec : c.records = []
  · have hsecs : c.sections = [] := congrArg sectionsOf hrec
    rw [hrec, layout_nil, List.length_nil] at hlen
    refine (walk_end rfl (show ¬ 9 < c.bytes.length by omega)).congr ?_ fun k => ?_
    · simp [hsecs]
    · simp [hsecs, Adds]
  · have hpos : 9 < c.bytes.length := by
      obtain ⟨r, rs, hrs⟩ := List.exists_cons_of_ne_nil hrec
      have hr := (c.tiled r (by rw [hrs]; exact List.mem_cons_self ..)).1
      rw [hlen, hrs, layout_cons, List.length_append, r.length_bytes]
      omega
    rw [← hbn]
    exact walk_enter rfl hpos (walk_leading u.object
      (s := { init (Memory.ofBuffer c.bytes u.buffer) with loop := .leading .none }) rfl
      (holds_chain c u.buffer).2 hlen.symm c.tiled (hint hrec))

/-- When the walk over a chain is known, so is what `Configuration` needs. -/
theorem indexSafe_iff_of_walk {safe : Prop} {added : ℕ → Prop}
    (h : ∀ u : Uninit, Walk (Memory.ofBuffer c.bytes u.buffer) u.object c.bytes.length
      (init (Memory.ofBuffer c.bytes u.buffer)) safe added) :
    IndexSafe c.bytes ↔ safe ∧ ∀ k < c.header.bNumInterfaces.toNat, added k := by
  -- The configuration at the end has the header's count and the added groups.
  have hend : ∀ u : Uninit, ∃ n, (after (Memory.ofBuffer c.bytes u.buffer) u.object c.bytes.length
      n).loop = .done ∧ (none ∉ (after (Memory.ofBuffer c.bytes u.buffer) u.object c.bytes.length
        n).configuration.interfaceGroups ↔ ∀ k < c.header.bNumInterfaces.toNat, added k) := by
    intro u
    obtain ⟨t, hreach, hdone, hfilled⟩ := (h u).ends
    have hdesc : t.configuration.descriptor = c.header :=
      hreach.invariant (fun s hs => (descriptor_step s).trans hs)
        (congrArg Configuration.descriptor (configuration_init c u.buffer))
    obtain ⟨n, rfl⟩ := hreach
    refine ⟨n, hdone, ?_⟩
    show none ∉ (Configuration.interfaceGroups (Parser.configuration
      ((step _ _ _)^[n] (init _)))) ↔ _
    rw [none_notMem_iff, hdesc]
    refine forall_congr' fun k => imp_congr_right fun _ => (hfilled k).trans ?_
    rw [configuration_init]
    exact or_iff_right (Configuration.not_filled_new _ _)
  constructor
  · intro hsafe
    refine ⟨(h ⟨fun _ => 0, fun _ _ => 0, 0⟩).safe_iff.1 fun n => (hsafe silent _ n).1, ?_⟩
    obtain ⟨n, hdone, hgroups⟩ := hend ⟨fun _ => 0, fun _ _ => 0, 0⟩
    rw [← hgroups]
    intro hnone
    apply (hsafe silent ⟨fun _ => 0, fun _ _ => 0, 0⟩ n).2
    simp only [Configuration.finish, hdone]
    rw [activeAlternates_crash (by simp [silent]) _ _ _ hnone]
    rfl
  · rintro ⟨hsafe, hadded⟩ proxy u n
    refine ⟨(h u).safe_iff.2 hsafe n, ?_⟩
    obtain ⟨m, hdone, hgroups⟩ := hend u
    cases hl : (after (Memory.ofBuffer c.bytes u.buffer) u.object c.bytes.length n).loop with
    | done =>
      have heq := Reaches.unique ⟨n, rfl⟩ (step_done hl) ⟨m, rfl⟩ (step_done hdone)
      have hnotmem := hgroups.2 hadded
      rw [← show after _ _ _ n = after _ _ _ m from heq] at hnotmem
      have hne := activeAlternates_ne_crash proxy u.result 2 0 hnotmem
      simp only [Configuration.finish, hl]
      cases hr : Configuration.activeAlternates proxy u.result 2 0 _ with
      | error stop =>
        rw [hr] at hne
        simpa [bind, Except.bind] using hne
      | ok rest => simp [bind, Except.bind, pure, Except.pure]
    | configuration => simp [Configuration.finish, hl, throw, throwThe, MonadExceptOf.throw]
    | leading g => simp [Configuration.finish, hl, throw, throwThe, MonadExceptOf.throw]
    | descriptors i ep => simp [Configuration.finish, hl, throw, throwThe, MonadExceptOf.throw]

/-- Without an interface descriptor the object is made of what lies behind the buffer, and the number
there need not be in range. -/
theorem not_indexSafe_of_no_interface (hrec : c.records ≠ []) (hsecs : c.sections = []) :
    ¬ IndexSafe c.bytes := by
  intro hsafe
  let mem := Memory.ofBuffer c.bytes fun _ => 255
  have hlen := length_bytes_chain c
  have hpos : 9 < c.bytes.length := by
    obtain ⟨r, rs, hrs⟩ := List.exists_cons_of_ne_nil hrec
    have hr := (c.tiled r (by rw [hrs]; exact List.mem_cons_self ..)).1
    rw [hlen, hrs, layout_cons, List.length_append, r.length_bytes]
    omega
  have hinside : Always (step mem (fun _ _ => 255) c.bytes.length) (IndicesInside mem c.bytes.length)
      (init mem) := fun n => (hsafe silent ⟨fun _ => 255, fun _ _ => 255, 0⟩ n).1
  have hfirst : step mem (fun _ _ => 255) c.bytes.length (init mem) =
      { init mem with loop := .leading .none } := step_enter rfl hpos
  obtain ⟨g, crashed, hreach⟩ := leading_end (fun _ _ => 255) (e := c.bytes.length)
    (s := { init mem with loop := .leading .none }) rfl (holds_chain c fun _ => 255).2 hlen.symm c.tiled
    hsecs
  have hlast : step mem (fun _ _ => 255) c.bytes.length
      { init mem with loop := .leading g, p := c.bytes.length, crashed } = _ :=
    step_interface rfl fun h => Nat.lt_irrefl _ h.2
  have hstored := hinside.reaches (Reaches.head (by rw [hfirst]; exact hreach.tail))
  rw [hlast] at hstored
  have hbyte : ∀ a, c.bytes.length ≤ a → mem a = 255 := fun a ha => by
    show (c.bytes[a]?).getD 255 = 255
    rw [List.getElem?_eq_none ha]
    rfl
  have hnumber : (UsbInterfaceDescriptor.ofMemory mem (fun _ => 255)
      c.bytes.length).bInterfaceNumber = 255 := by
    unfold UsbInterfaceDescriptor.ofMemory
    rw [hbyte _ (Nat.le_refl _)]
    exact hbyte _ (Nat.le_add_right ..)
  simp only [IndicesInside] at hstored
  rw [if_neg (fun h => Nat.not_lt_of_le (Nat.le_add_right ..) h.1)] at hstored
  have hlt : (255 : Byte).toNat < (init mem).configuration.descriptor.bNumInterfaces.toNat :=
    hnumber ▸ hstored
  have h255 : (255 : Byte).toNat = 255 := rfl
  have := (init mem).configuration.descriptor.bNumInterfaces.toNat_lt
  omega

/-- **Indices.**  While `Configuration` parses a chain of descriptors, every index is inside its array
and every group the last loop follows exists, exactly when counts and contents agree. -/
theorem indexSafe_iff (c : Chain) : IndexSafe c.bytes ↔ c.Consistent := by
  by_cases hint : c.records ≠ [] → c.sections ≠ []
  · rw [indexSafe_iff_of_walk (walk_chain hint)]
    constructor
    · rintro ⟨hin, hadds⟩
      exact ⟨hint, hin, fun k hk => (hadds k hk).2⟩
    · exact fun h => ⟨h.inside, fun k hk => ⟨hk, h.complete k hk⟩⟩
  · obtain ⟨hrec, hsecs⟩ := Classical.not_imp.1 hint
    exact iff_of_false (not_indexSafe_of_no_interface hrec (not_not.1 hsecs)) fun h => hint h.interface

end Chain

/-- A configuration of one interface, whose number is 2. -/
def gap : Chain where
  header :=
    { bLength := 9, bDescriptorType := 2, wTotalLength := 18, bNumInterfaces := 1
      bConfigurationValue := 1, iConfiguration := 0, bmAttributes := 0x80, bMaxPower := 50 }
  records := [⟨[9, 4, 2, 0, 0, 0xff, 0, 0, 0], rfl⟩]
  tiled := by
    intro r hr
    obtain rfl := List.mem_singleton.1 hr
    decide

/-- `add_interface` stores behind an array of one entry. -/
theorem indexSafe_not_gap : ¬ ∀ c : Chain, IndexSafe c.bytes := by
  intro h
  have hstored : 2 < 1 := (h gap silent ⟨fun _ => 0, fun _ _ => 0, 0⟩ 2).1
  exact absurd hstored (by decide)

end Parser

end UsbProxy
