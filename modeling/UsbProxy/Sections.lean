import UsbProxy.Configuration

/-!
# Configurations as descriptors in a row

What a device sends: a header, descriptors in front of the first interface descriptor, and then one
section after another, an interface descriptor with what follows it up to the next one.  `Section`
and `ConfigBlob` are this reading of the bytes, with the descriptors as records;
`Section.arranged` is the order in which an object that holds the section puts it out.
-/

namespace UsbProxy

open Records

/-- The three places a descriptor behind an interface descriptor can be filed at. -/
inductive Kind
  | endpoint
  | hid
  | other
  deriving DecidableEq, Repr

def kind (r : Record) : Kind :=
  if r.tag = USB_DT_ENDPOINT then .endpoint else if r.tag = USB_DT_HID then .hid else .other

def ofKind (k : Kind) (rs : List Record) : List Record := rs.filter fun r => kind r = k

theorem ofKind_append (k : Kind) (rs ss : List Record) :
    ofKind k (rs ++ ss) = ofKind k rs ++ ofKind k ss := List.filter_append ..

theorem ofKind_self {k : Kind} {rs : List Record} (h : ∀ r ∈ rs, kind r = k) : ofKind k rs = rs :=
  List.filter_eq_self.2 fun r hr => by simpa using h r hr

theorem ofKind_nil {k : Kind} {rs : List Record} (h : ∀ r ∈ rs, kind r ≠ k) : ofKind k rs = [] :=
  List.filter_eq_nil_iff.2 fun r hr => by simpa using h r hr

theorem ofKind_cons_self {k : Kind} {r : Record} (hk : kind r = k) (rs : List Record) :
    ofKind k (r :: rs) = r :: ofKind k rs := List.filter_cons_of_pos (by simpa using hk)

theorem ofKind_concat_self {k : Kind} {r : Record} (hk : kind r = k) (rs : List Record) :
    ofKind k (rs ++ [r]) = ofKind k rs ++ [r] := by
  rw [ofKind_append, ofKind_cons_self hk]
  rfl

theorem ofKind_concat_ne {k : Kind} {r : Record} (hk : kind r ≠ k) (rs : List Record) :
    ofKind k (rs ++ [r]) = ofKind k rs := by
  rw [ofKind_append, show ofKind k [r] = [] from ofKind_nil (by simpa using hk), List.append_nil]

theorem mem_of_mem_ofKind {k : Kind} {rs : List Record} {r : Record} (h : r ∈ ofKind k rs) :
    r ∈ rs := List.mem_of_mem_filter h

theorem length_ofKind (rs : List Record) :
    (ofKind .hid rs).length + (ofKind .other rs).length + (ofKind .endpoint rs).length =
      rs.length := by
  induction rs with
  | nil => rfl
  | cons r rs ih =>
    unfold ofKind at ih ⊢
    rcases hk : kind r <;> simp [hk] <;> omega

/-- A descriptor that begins no section. -/
def Inner (r : Record) : Prop := 2 ≤ r.size.toNat ∧ r.tag ≠ USB_DT_INTERFACE

/-! ## Sections -/

structure Section where
  descriptor : UsbInterfaceDescriptor
  rest : List Record

namespace Section

/-- The interface descriptor as a record. -/
def head (sec : Section) : Record := structRecord sec.descriptor.bLength sec.descriptor.bytes.tail

def records (sec : Section) : List Record := sec.head :: sec.rest

/-- The section as its object puts it out: the HID descriptor behind the interface descriptor, then
the descriptors of no special kind, those of `lead` first, then the endpoints. -/
def arranged (lead : List Record) (sec : Section) : List Record :=
  sec.head :: (ofKind .hid sec.rest ++ (lead ++ ofKind .other sec.rest) ++ ofKind .endpoint sec.rest)

/-- What a valid configuration has behind an interface descriptor. -/
structure Valid (sec : Section) : Prop where
  bLength : sec.descriptor.bLength = 9
  bDescriptorType : sec.descriptor.bDescriptorType = USB_DT_INTERFACE
  rest : ∀ r ∈ sec.rest, Inner r
  endpoints : (ofKind .endpoint sec.rest).length = sec.descriptor.bNumEndpoints.toNat
  endpoint_size : ∀ r ∈ ofKind .endpoint sec.rest, r.size = 7 ∨ r.size = 9
  hid : (ofKind .hid sec.rest).length ≤ 1

variable {sec : Section} {lead : List Record}

theorem bytes_head (h : sec.descriptor.bLength = 9) : sec.head.bytes = sec.descriptor.bytes := by
  show fromStruct sec.descriptor.bytes sec.descriptor.bLength = _
  rw [h]
  rfl

theorem size_head (h : sec.descriptor.bLength = 9) : sec.head.size = 9 := by
  rw [Record.size, bytes_head h, ← h]
  rfl

theorem tag_head (h : sec.descriptor.bLength = 9) : sec.head.tag = sec.descriptor.bDescriptorType := by
  rw [Record.tag, bytes_head h]
  rfl

theorem length_arranged (lead : List Record) (sec : Section) :
    (sec.arranged lead).length = lead.length + sec.records.length := by
  have h := length_ofKind sec.rest
  simp only [arranged, records, List.length_cons, List.length_append]
  omega

/-- A section stands in its object's order exactly when nothing is put in front of its rest and the
rest is sorted. -/
theorem arranged_nil_eq_iff :
    sec.arranged [] = sec.records ↔
      sec.rest = ofKind .hid sec.rest ++ ofKind .other sec.rest ++ ofKind .endpoint sec.rest := by
  unfold arranged records
  rw [List.nil_append, List.cons.injEq, and_iff_right rfl, eq_comm]

theorem mem_arranged {r : Record} (h : r ∈ sec.arranged lead) :
    r = sec.head ∨ r ∈ lead ∨ r ∈ sec.rest := by
  unfold arranged at h
  simp only [List.mem_cons, List.mem_append] at h
  rcases h with h | (h | h | h) | h
  · exact .inl h
  · exact .inr (.inr (mem_of_mem_ofKind h))
  · exact .inr (.inl h)
  · exact .inr (.inr (mem_of_mem_ofKind h))
  · exact .inr (.inr (mem_of_mem_ofKind h))

end Section

/-- The descriptors in front of the first interface descriptor go to its section. -/
def withLeading (lead : List Record) : List Section → List (List Record × Section)
  | [] => []
  | sec :: secs => (lead, sec) :: secs.map fun sec => ([], sec)

theorem withLeading_nil (secs : List Section) :
    withLeading [] secs = secs.map fun sec => ([], sec) := by
  cases secs <;> rfl

theorem withLeading_cons (lead : List Record) (sec : Section) (secs : List Section) :
    withLeading lead (sec :: secs) = (lead, sec) :: withLeading [] secs := by
  rw [withLeading_nil]
  rfl

/-! ## Configuration blobs -/

structure ConfigBlob where
  header : UsbConfigDescriptor
  leading : List Record
  /-- The sections of each interface number, one for each alternate setting. -/
  groups : List (List Section)

namespace ConfigBlob

def sections (blob : ConfigBlob) : List Section := blob.groups.flatten

def records (blob : ConfigBlob) : List Record :=
  blob.leading ++ blob.sections.flatMap Section.records

def bytes (blob : ConfigBlob) : List Byte := blob.header.bytes ++ layout blob.records

/-- Every section in the order of its object. -/
def arranged (blob : ConfigBlob) : List Record :=
  (withLeading blob.leading blob.sections).flatMap fun (lead, sec) => sec.arranged lead

structure Valid (blob : ConfigBlob) : Prop where
  bLength : blob.header.bLength = 9
  wTotalLength : blob.header.wTotalLength.toNat = blob.bytes.length
  bNumInterfaces : blob.groups.length = blob.header.bNumInterfaces.toNat
  leading : ∀ r ∈ blob.leading, Inner r
  numbered : Numbered 0 (blob.groups.map (List.map Section.descriptor))
  sections : ∀ sec ∈ blob.sections, sec.Valid

end ConfigBlob

end UsbProxy
