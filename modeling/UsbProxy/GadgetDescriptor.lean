import UsbProxy.Library.Patches
import UsbProxy.Manager

/-!
# `HostProxy_GadgetFS::generate_descriptor`

The descriptors the gadget file system gets: every configuration for full speed, then every
configuration for high speed.  For a device that is not a high-speed one the high-speed blocks are the
same configurations with other polling intervals.  The loop that changes the intervals steps over the
active alternate setting of each interface, while the bytes hold all of them; `hsBlock_iff` says when it
only meets intervals.

The conversion of an interval is a function of the old value, any function.
-/

namespace UsbProxy

open Records Patches

def USB_CONFIG_ATT_WAKEUP : Byte := 0x20

/-! ## The blocks -/

/-- The stores to `bDescriptorType`, `bmAttributes` and `wTotalLength` through the
`usb_config_descriptor` pointer. -/
def setHeader (buf : List Byte) (length : ℕ) : List Byte :=
  let w := UInt16.ofNat length
  (((buf.set 1 USB_DT_CONFIG).set 7 (buf.getD 7 0 &&& ~~~USB_CONFIG_ATT_WAKEUP)).set 2
    (UInt8.ofNat (w.toNat % 256))).set 3 (UInt8.ofNat (w.toNat / 256))

/-- What `pointer` does for one interface: it is moved over its descriptors, and for each endpoint
`bInterval` is rewritten and `pointer` moved by `epd->bLength`. -/
def Interface.moves (i : Interface) : List Move :=
  .skip i.descriptor.bLength.toNat :: i.hidDescriptor.toList.map (fun hid => .skip hid.size.toNat) ++
    i.genericDescriptors.entries.map (fun d => .skip d.size.toNat) ++
    List.replicate i.descriptor.bNumEndpoints.toNat .patch

/-- The moves for the interfaces in turn; a null one is followed. -/
def walkMoves : List (Option Interface) → Option (List Move)
  | [] => some []
  | ifc :: ifcs => ifc.bind fun i => (walkMoves ifcs).map fun ms => i.moves ++ ms

/-- `cfg->get_interface(k)` for `k` below a count. -/
def Configuration.activeInterfaces (c : Configuration) (n : Byte) : List (Option Interface) :=
  (List.range n.toNat).map fun k => c.getInterface (UInt8.ofNat k)

def Configuration.fsBlock (c : Configuration) : List Byte :=
  setHeader c.getFullDescriptor c.getFullDescriptorLength

/-- The block for high speed.  The count and the start are read from the block; a null interface and a
store outside of the block are `none`. -/
def Configuration.hsBlock (c : Configuration) (highspeed : Bool) (newValue : Byte → Byte) :
    Option (List Byte) :=
  let buf := setHeader c.getFullDescriptor c.getFullDescriptorLength
  if highspeed then some buf
  else (walkMoves (c.activeInterfaces (buf.getD 4 0))).bind fun ms =>
    run UInt8.toNat 6 newValue ms buf (buf.getD 0 0).toNat

namespace Device

/-- `get_device_qualifier()->get_configuration(i)` or `get_configuration(i)`. -/
def lookUp (d : Device) (other : Bool) (i : Byte) : Option Configuration :=
  match d.qualifier with
  | some q => if other then q.getConfiguration i else d.getConfiguration i
  | none => d.getConfiguration i

/-- The configurations one of the two loops finds. -/
def configurationsFor (d : Device) (other : Bool) : List Configuration :=
  (List.range' 1 d.bNumConfigurations.toNat).filterMap fun i => d.lookUp other (UInt8.ofNat i)

/-- The configurations of the second loop. -/
def hsConfigurations (d : Device) : List Configuration := d.configurationsFor !d.highspeed

def hsBlocks (highspeed : Bool) (newValue : Byte → Byte) : List Configuration →
    Option (List (List Byte))
  | [] => some []
  | c :: cs => (c.hsBlock highspeed newValue).bind fun block =>
    (hsBlocks highspeed newValue cs).map fun blocks => block :: blocks

end Device

/-! ## Where the intervals are -/

/-- The parts of the full descriptor of an interface, with the mark of an endpoint descriptor. -/
def Interface.pieces (i : Interface) : List (Bool × List Byte) :=
  (false, fromStruct i.descriptor.bytes i.descriptor.bLength) ::
    i.hidDescriptor.toList.map (fun hid => (false, hid.bytes)) ++
    i.genericDescriptors.entries.map (fun d => (false, d.bytes)) ++
    i.endpoints.reduceOption.map fun ep => (true, ep.getFullDescriptor)

def Configuration.pieces (c : Configuration) : List (Bool × List Byte) :=
  (false, fromStruct c.descriptor.bytes c.descriptor.bLength) ::
    c.interfaceGroups.reduceOption.flatMap fun g => g.alternates.reduceOption.flatMap Interface.pieces

/-- The offsets of `bInterval` in the endpoint descriptors that have one, in pieces laid out from
`o` on. -/
def intervals : List (Bool × List Byte) → ℕ → List ℕ
  | [], _ => []
  | (endpoint, bs) :: ps, o =>
    if endpoint ∧ 6 < bs.length then (o + 6) :: intervals ps (o + bs.length)
    else intervals ps (o + bs.length)

/-- The offsets of `bDescriptorType`, `wTotalLength` and `bmAttributes`. -/
def headerFields : List ℕ := [1, 2, 3, 7]

namespace Configuration

/-- The block is the full descriptor up to the three header fields and the intervals. -/
def FrameKept (c : Configuration) (block : List Byte) : Prop :=
  AgreeOff (fun q => q ∈ headerFields ∨ q ∈ intervals c.pieces 0) block c.getFullDescriptor

end Configuration

/-! ## Interfaces in line with the layout -/

/-- An endpoint descriptor of `n` bytes, the interval among them, begins at the offset `o`. -/
def EndpointAt (ps : List (Bool × List Byte)) (o n : ℕ) : Prop :=
  ∃ front bs back, ps = front ++ (true, bs) :: back ∧ (front.flatMap Prod.snd).length = o ∧
    bs.length = n ∧ 6 < n

/-- `k` endpoint descriptors stand in a row from `o` to `o'`. -/
inductive EndpointsAt (ps : List (Bool × List Byte)) : ℕ → ℕ → ℕ → Prop
  | nil (o : ℕ) : EndpointsAt ps o 0 o
  | cons {o n k o' : ℕ} (h : EndpointAt ps o n) (hs : EndpointsAt ps (o + n) k o') :
      EndpointsAt ps o (k + 1) o'

/-- The bytes an interface has in front of its endpoint descriptors. -/
def Interface.ownLength (i : Interface) : ℕ :=
  i.descriptor.bLength.toNat + total (fun hid => hid.size.toNat) i.hidDescriptor.toList +
    total (fun d => d.size.toNat) i.genericDescriptors.entries

/-- From the offset `o` on: behind as many bytes as the interface has of its own there are as many
endpoint descriptors in a row as it has slots, and so on behind them for the next interface. -/
inductive InLine (ps : List (Bool × List Byte)) : ℕ → List (Option Interface) → Prop
  | nil (o : ℕ) : InLine ps o []
  | cons {o o' : ℕ} {i : Interface} {is : List (Option Interface)}
      (h : EndpointsAt ps (o + i.ownLength) i.descriptor.bNumEndpoints.toNat o')
      (hs : InLine ps o' is) : InLine ps o (some i :: is)

/-- Every interface has its active alternate setting, and behind the header these are in line with the
full descriptor. -/
def Configuration.Aligned (c : Configuration) : Prop :=
  InLine c.pieces c.descriptor.bLength.toNat (c.activeInterfaces c.descriptor.bNumInterfaces)

/-! ## The layout of the pieces -/

section Layout

variable {ps : List (Bool × List Byte)} {o q q' : ℕ}

theorem bounds_of_mem_intervals (h : q ∈ intervals ps o) :
    o + 6 ≤ q ∧ q < o + (ps.flatMap Prod.snd).length := by
  induction ps generalizing o with
  | nil => cases h
  | cons p ps ih =>
    obtain ⟨endpoint, bs⟩ := p
    rw [List.flatMap_cons, List.length_append]
    show _ ∧ q < o + (bs.length + _)
    unfold intervals at h
    split_ifs at h with hep
    · rcases List.mem_cons.1 h with rfl | h
      · omega
      · have := ih h
        omega
    · have := ih h
      omega

theorem add_seven_le_of_mem_intervals (h : q ∈ intervals ps o) (h' : q' ∈ intervals ps o)
    (hlt : q < q') : q + 7 ≤ q' := by
  induction ps generalizing o with
  | nil => cases h
  | cons p ps ih =>
    obtain ⟨endpoint, bs⟩ := p
    unfold intervals at h h'
    split_ifs at h h' with hep
    · rcases List.mem_cons.1 h with rfl | h
      · rcases List.mem_cons.1 h' with rfl | h'
        · omega
        · have := bounds_of_mem_intervals h'
          omega
      · rcases List.mem_cons.1 h' with rfl | h'
        · have := bounds_of_mem_intervals h
          omega
        · exact ih h h'
    · exact ih h h'

theorem notMem_intervals (h : q + 6 ∈ intervals ps o) : q ∉ intervals ps o := by
  intro h'
  have := add_seven_le_of_mem_intervals h' h (by omega)
  omega

/-- An interval is the seventh byte of an endpoint descriptor. -/
theorem mem_intervals_iff : q ∈ intervals ps o ↔ ∃ p n, EndpointAt ps p n ∧ q = o + p + 6 := by
  induction ps generalizing o with
  | nil =>
    refine iff_of_false (List.not_mem_nil) ?_
    rintro ⟨p, n, ⟨front, bs, back, hps, -⟩, -⟩
    simp at hps
  | cons x ps ih =>
    obtain ⟨endpoint, bs⟩ := x
    -- A descriptor is the first one or lies behind it.
    have hbehind : ∀ p n, EndpointAt ((endpoint, bs) :: ps) p n ↔
        (endpoint = true ∧ p = 0 ∧ bs.length = n ∧ 6 < n) ∨
          ∃ p', p = bs.length + p' ∧ EndpointAt ps p' n := by
      intro p n
      constructor
      · rintro ⟨front, bs', back, hps, hlen, hn, h6⟩
        cases front with
        | nil =>
          obtain ⟨heq, rfl⟩ := List.cons.inj hps
          obtain ⟨rfl, rfl⟩ := Prod.mk.inj heq
          exact .inl ⟨rfl, hlen.symm, hn, h6⟩
        | cons y front =>
          obtain ⟨rfl, rfl⟩ := List.cons.inj hps
          rw [List.flatMap_cons, List.length_append] at hlen
          exact .inr ⟨_, hlen.symm, front, bs', back, rfl, rfl, hn, h6⟩
      · rintro (⟨rfl, rfl, hn, h6⟩ | ⟨p', rfl, front, bs', back, rfl, rfl, hn, h6⟩)
        · exact ⟨[], bs, ps, rfl, rfl, hn, h6⟩
        · exact ⟨(endpoint, bs) :: front, bs', back, rfl,
            by rw [List.flatMap_cons, List.length_append], hn, h6⟩
    simp only [hbehind]
    unfold intervals
    split_ifs with hep
    · rw [List.mem_cons, ih]
      constructor
      · rintro (rfl | ⟨p, n, hat, rfl⟩)
        · exact ⟨0, bs.length, .inl ⟨hep.1, rfl, rfl, hep.2⟩, rfl⟩
        · exact ⟨bs.length + p, n, .inr ⟨p, rfl, hat⟩, by omega⟩
      · rintro ⟨p, n, ⟨-, rfl, -⟩ | ⟨p', rfl, hat⟩, rfl⟩
        · exact .inl rfl
        · exact .inr ⟨p', n, hat, by omega⟩
    · rw [ih]
      constructor
      · rintro ⟨p, n, hat, rfl⟩
        exact ⟨bs.length + p, n, .inr ⟨p, rfl, hat⟩, by omega⟩
      · rintro ⟨p, n, ⟨he, -, rfl, h6⟩ | ⟨p', rfl, hat⟩, rfl⟩
        · exact absurd ⟨he, h6⟩ hep
        · exact ⟨p', n, hat, by omega⟩

end Layout

/-! ## The walk over the layout -/

section Walk

variable {ps : List (Bool × List Byte)} {buf : List Byte} {ms : List Move}

theorem places_skips (rs : List Record) (ms : List Move) (buf : List Byte) (p : ℕ) :
    places UInt8.toNat (rs.map (fun r => .skip r.size.toNat) ++ ms) buf p =
      places UInt8.toNat ms buf (p + total (fun r => r.size.toNat) rs) := by
  induction rs generalizing p with
  | nil => rfl
  | cons r rs ih =>
    rw [List.map_cons, List.cons_append, places, ih, total, Nat.add_assoc]

theorem places_moves (i : Interface) (ms : List Move) (buf : List Byte) (p : ℕ) :
    places UInt8.toNat (i.moves ++ ms) buf p =
      places UInt8.toNat (List.replicate i.descriptor.bNumEndpoints.toNat .patch ++ ms) buf
        (p + i.ownLength) := by
  unfold Interface.moves Interface.ownLength
  rw [List.append_assoc, List.append_assoc, List.cons_append, places, places_skips, places_skips,
    Nat.add_assoc, Nat.add_assoc, Nat.add_assoc]

/-- The patches for one interface meet intervals if endpoint descriptors stand in a row there, and the
cursor goes to the end of the row. -/
theorem row_iff (hbuf : ∀ p n, EndpointAt ps p n → ∃ b, buf[p]? = some b ∧ b.toNat = n) (k : ℕ)
    (p : ℕ) :
    (∀ q ∈ places UInt8.toNat (List.replicate k .patch ++ ms) buf p, q + 6 ∈ intervals ps 0) ↔
      ∃ p', EndpointsAt ps p k p' ∧ ∀ q ∈ places UInt8.toNat ms buf p', q + 6 ∈ intervals ps 0 := by
  induction k generalizing p with
  | zero =>
    constructor
    · exact fun h => ⟨p, .nil p, h⟩
    · rintro ⟨p', hrow, h⟩
      cases hrow
      exact h
  | succ k ih =>
    rw [List.replicate_succ, List.cons_append]
    constructor
    · intro h
      obtain ⟨p₀, n, hat, heq⟩ := mem_intervals_iff.1 (h p (List.mem_cons_self ..))
      obtain rfl : p = p₀ := by omega
      obtain ⟨b, hb, rfl⟩ := hbuf p n hat
      rw [places_patch hb] at h
      obtain ⟨p', hrow, hrest⟩ := (ih _).1 fun q hq => h q (List.mem_cons_of_mem _ hq)
      exact ⟨p', .cons hat hrow, hrest⟩
    · rintro ⟨p', hrow, hrest⟩
      cases hrow with
      | @cons _ n _ _ hat hrow =>
        obtain ⟨b, hb, rfl⟩ := hbuf p n hat
        rw [places_patch hb]
        refine List.forall_mem_cons.2 ⟨mem_intervals_iff.2 ⟨p, _, hat, by omega⟩, ?_⟩
        exact (ih _).2 ⟨p', hrow, hrest⟩

theorem inLine_iff (hbuf : ∀ p n, EndpointAt ps p n → ∃ b, buf[p]? = some b ∧ b.toNat = n)
    (ifcs : List (Option Interface)) (p : ℕ) :
    InLine ps p ifcs ↔ ∃ ms, walkMoves ifcs = some ms ∧
      ∀ q ∈ places UInt8.toNat ms buf p, q + 6 ∈ intervals ps 0 := by
  induction ifcs generalizing p with
  | nil => exact iff_of_true (.nil p) ⟨[], rfl, fun q hq => absurd hq List.not_mem_nil⟩
  | cons ifc ifcs ih =>
    constructor
    · rintro (_ | ⟨hrow, hrest⟩)
      obtain ⟨ms, hms, hall⟩ := (ih _).1 hrest
      rename_i i
      refine ⟨i.moves ++ ms, by rw [walkMoves, hms]; rfl, ?_⟩
      rw [places_moves]
      exact (row_iff hbuf _ _).2 ⟨_, hrow, hall⟩
    · rintro ⟨ms, hms, hall⟩
      rw [walkMoves, Option.bind_eq_some_iff] at hms
      obtain ⟨i, rfl, hms⟩ := hms
      obtain ⟨rest, hrest, rfl⟩ := Option.map_eq_some_iff.1 hms
      rw [places_moves] at hall
      obtain ⟨p', hrow, hall⟩ := (row_iff hbuf _ _).1 hall
      exact .cons hrow ((ih p').2 ⟨rest, hrest, hall⟩)

end Walk

theorem Interface.flatMap_pieces (i : Interface) : i.pieces.flatMap Prod.snd = i.getFullDescriptor := by
  unfold pieces getFullDescriptor
  simp only [List.flatMap_append, List.flatMap_cons, List.flatMap_map]

namespace Configuration

variable {c : Configuration} {q : ℕ}

theorem flatMap_pieces (c : Configuration) : c.pieces.flatMap Prod.snd = c.getFullDescriptor := by
  unfold pieces getFullDescriptor InterfaceGroup.getFullDescriptor
  simp only [List.flatMap_cons, List.flatMap_assoc, Interface.flatMap_pieces]

theorem lt_length_of_mem_intervals (h : q ∈ intervals c.pieces 0) :
    q < c.getFullDescriptor.length := by
  have := (bounds_of_mem_intervals h).2
  rwa [flatMap_pieces, Nat.zero_add] at this

theorem getElem?_getFullDescriptor (h : 9 ≤ c.descriptor.bLength.toNat) (hq : q < 9) :
    c.getFullDescriptor[q]? = c.descriptor.bytes[q]? := by
  have hlen : q < (fromStruct c.descriptor.bytes c.descriptor.bLength).length := by
    rw [fromStruct, List.takeD_length]
    omega
  obtain ⟨k, hk⟩ := Nat.exists_eq_add_of_le' h
  unfold getFullDescriptor
  rw [List.getElem?_append_left hlen, fromStruct, hk]
  have hparts : List.takeD (k + 9) c.descriptor.bytes 0 = c.descriptor.bytes ++ List.takeD k [] 0 := rfl
  rw [hparts, List.getElem?_append_left hq]

theorem endpoint_of_mem_pieces {bs : List Byte} (h : (true, bs) ∈ c.pieces) :
    ∃ ep : Endpoint, bs = ep.getFullDescriptor := by
  unfold pieces at h
  simp only [List.mem_cons, List.mem_flatMap, Prod.mk.injEq, Bool.true_eq_false, false_and,
    false_or] at h
  obtain ⟨g, -, i, -, h⟩ := h
  simp only [Interface.pieces, List.mem_append, List.mem_cons, List.mem_map, Prod.mk.injEq,
    Bool.true_eq_false, Bool.false_eq_true, false_and, and_false, exists_false, false_or, true_and] at h
  obtain ⟨ep, -, rfl⟩ := h
  exact ⟨ep, rfl⟩

theorem length_at_endpoint {p n : ℕ} (h : EndpointAt c.pieces p n) :
    ∃ b, c.getFullDescriptor[p]? = some b ∧ b.toNat = n := by
  obtain ⟨front, bs, back, hps, rfl, rfl, h6⟩ := h
  have hmem : (true, bs) ∈ c.pieces := by
    rw [hps]
    simp
  obtain ⟨ep, rfl⟩ := endpoint_of_mem_pieces hmem
  rw [Endpoint.length_getFullDescriptor] at h6 ⊢
  refine ⟨ep.descriptor.bLength, ?_, rfl⟩
  obtain ⟨k, hk⟩ := Nat.exists_eq_add_of_lt h6
  have hfirst : ep.getFullDescriptor[0]? = some ep.descriptor.bLength := by
    show (List.takeD ep.descriptor.bLength.toNat _ 0)[0]? = _
    rw [show ep.descriptor.bLength.toNat = (6 + k) + 1 from hk]
    rfl
  rw [← flatMap_pieces, hps, List.flatMap_append, List.getElem?_append_right (Nat.le_refl _),
    Nat.sub_self, List.flatMap_cons, List.getElem?_append_left, hfirst]
  rw [Endpoint.length_getFullDescriptor]
  exact Nat.lt_of_le_of_lt (Nat.zero_le 6) h6

/-- The interfaces are in line exactly when the walk comes to beginnings of endpoint descriptors. -/
theorem aligned_iff : c.Aligned ↔
    ∃ ms, walkMoves (c.activeInterfaces c.descriptor.bNumInterfaces) = some ms ∧
      ∀ p ∈ places UInt8.toNat ms c.getFullDescriptor c.descriptor.bLength.toNat,
        p + 6 ∈ intervals c.pieces 0 :=
  inLine_iff (fun _ _ => length_at_endpoint) _ _

theorem setHeader_agrees (buf : List Byte) (length : ℕ) :
    AgreeOff (fun q => q ∈ headerFields) (setHeader buf length) buf := by
  unfold setHeader
  exact ((((AgreeOff.refl buf).set (by decide) _).set (by decide) _).set (by decide) _).set (by decide) _

theorem walk_start (h : 9 ≤ c.descriptor.bLength.toNat) (length : ℕ) :
    (setHeader c.getFullDescriptor length).getD 0 0 = c.descriptor.bLength ∧
      (setHeader c.getFullDescriptor length).getD 4 0 = c.descriptor.bNumInterfaces := by
  have hagree := (setHeader_agrees c.getFullDescriptor length).2
  rw [List.getD_eq_getElem?_getD, List.getD_eq_getElem?_getD, hagree 0 (by decide),
    hagree 4 (by decide), getElem?_getFullDescriptor h (by omega),
    getElem?_getFullDescriptor h (by omega)]
  exact ⟨rfl, rfl⟩

/-- The second loop's block of a device that is not a high-speed one: the walk over the first loop's
block. -/
theorem hsBlock_eq (h : 9 ≤ c.descriptor.bLength.toNat) (newValue : Byte → Byte) :
    c.hsBlock false newValue =
      (walkMoves (c.activeInterfaces c.descriptor.bNumInterfaces)).bind fun ms =>
        run UInt8.toNat 6 newValue ms c.fsBlock c.descriptor.bLength.toNat := by
  obtain ⟨hstart, hcount⟩ := walk_start h c.getFullDescriptorLength
  unfold hsBlock
  rw [if_neg Bool.false_ne_true, hstart, hcount]
  rfl

theorem fsBlock_agrees (c : Configuration) :
    AgreeOff (fun q => q ∈ headerFields) c.fsBlock c.getFullDescriptor :=
  setHeader_agrees c.getFullDescriptor c.getFullDescriptorLength

theorem getElem?_fsBlock (hq : 9 ≤ q) : c.fsBlock[q]? = c.getFullDescriptor[q]? := by
  apply c.fsBlock_agrees.2
  simp only [headerFields, List.mem_cons, List.not_mem_nil, or_false]
  omega

theorem places_fsBlock (h : 9 ≤ c.descriptor.bLength.toNat) (ms : List Move) :
    places UInt8.toNat ms c.fsBlock c.descriptor.bLength.toNat =
      places UInt8.toNat ms c.getFullDescriptor c.descriptor.bLength.toNat :=
  places_congr (fun _ => getElem?_fsBlock) h

/-- An aligned walk only changes intervals. -/
theorem hsBlock_of_aligned (h : 9 ≤ c.descriptor.bLength.toNat) (ha : c.Aligned)
    (newValue : Byte → Byte) : ∃ block, c.hsBlock false newValue = some block ∧
      AgreeOff (fun q => q ∈ intervals c.pieces 0) block c.fsBlock := by
  obtain ⟨ms, hms, hmem⟩ := aligned_iff.1 ha
  rw [← places_fsBlock h] at hmem
  rw [hsBlock_eq h, hms]
  exact run_of_places newValue (fun p => notMem_intervals)
    (fun q hq => by rw [c.fsBlock_agrees.1]; exact lt_length_of_mem_intervals hq) hmem (.refl _)

/-- A high-speed block of a full-speed device only differs in header fields and intervals, whatever the
conversion, exactly when the walk is aligned. -/
theorem hsBlock_iff (h : 9 ≤ c.descriptor.bLength.toNat) :
    (∀ newValue, ∃ block, c.hsBlock false newValue = some block ∧ c.FrameKept block) ↔ c.Aligned := by
  constructor
  · intro hframe
    obtain ⟨_, hsome, -⟩ := hframe id
    rw [hsBlock_eq h, Option.bind_eq_some_iff] at hsome
    obtain ⟨ms, hms, -⟩ := hsome
    refine aligned_iff.2 ⟨ms, hms, ?_⟩
    rw [← places_fsBlock h]
    have : Nontrivial Byte := ⟨0, 1, by decide⟩
    refine places_of_run (I := fun q => q ∈ intervals c.pieces 0) (fun p => notMem_intervals) h
      (fun _ => AgreeOff.refl _) fun b => ?_
    obtain ⟨block, hrun, hkept⟩ := hframe fun _ => b
    rw [hsBlock_eq h, hms] at hrun
    refine ⟨block, hrun, fun q hq hno => ?_⟩
    rw [getElem?_fsBlock hq]
    apply hkept.2
    rintro (hfield | hmem)
    · simp only [headerFields, List.mem_cons, List.not_mem_nil, or_false] at hfield
      omega
    · exact hno hmem
  · intro ha newValue
    obtain ⟨block, hblock, hkept⟩ := hsBlock_of_aligned h ha newValue
    have hheader := c.fsBlock_agrees
    refine ⟨block, hblock, hkept.1.trans hheader.1, fun q hq => ?_⟩
    rw [hkept.2 q fun hi => hq (.inr hi), hheader.2 q fun hf => hq (.inl hf)]

end Configuration

/-! ## One alternate setting for each interface -/

theorem endpointRow_of_pieces (front back : List (Bool × List Byte)) {eps : List Endpoint}
    (hlen : ∀ ep ∈ eps, 6 < ep.descriptor.bLength.toNat) :
    EndpointsAt (front ++ eps.map (fun ep => (true, ep.getFullDescriptor)) ++ back)
      (front.flatMap Prod.snd).length eps.length
      ((front ++ eps.map (fun ep => (true, ep.getFullDescriptor))).flatMap Prod.snd).length := by
  induction eps generalizing front with
  | nil =>
    rw [List.map_nil, List.append_nil]
    exact .nil _
  | cons ep eps ih =>
    obtain ⟨h6, heps⟩ := List.forall_mem_cons.1 hlen
    have hrest := ih (front ++ [(true, ep.getFullDescriptor)]) heps
    rw [List.append_assoc front, List.singleton_append, @List.flatMap_append _ _ front,
      List.length_append, List.flatMap_singleton] at hrest
    rw [← Endpoint.getFullDescriptorLength, ← Endpoint.length_getFullDescriptor] at h6
    have hat : EndpointAt (front ++ (true, ep.getFullDescriptor) ::
        eps.map (fun ep => (true, ep.getFullDescriptor)) ++ back) (front.flatMap Prod.snd).length
        ep.getFullDescriptor.length :=
      ⟨front, _, eps.map (fun ep => (true, ep.getFullDescriptor)) ++ back,
        by rw [List.append_assoc, List.cons_append], rfl, rfl, h6⟩
    exact .cons hat hrest

theorem Interface.length_own (i : Interface) :
    (((false, fromStruct i.descriptor.bytes i.descriptor.bLength) ::
      i.hidDescriptor.toList.map (fun hid => (false, hid.bytes)) ++
      i.genericDescriptors.entries.map fun d => (false, d.bytes)).flatMap Prod.snd).length =
      i.ownLength := by
  unfold ownLength
  simp only [List.flatMap_append, List.flatMap_cons, List.flatMap_map, List.length_append,
    length_flatMap Record.length_bytes, fromStruct, List.takeD_length]

/-- An interface number with one alternate setting, which is active and complete. -/
def InterfaceGroup.Single (g : InterfaceGroup) : Prop :=
  g.activeAlternateIndex = 0 ∧ ∃ (i : Interface) (eps : List Endpoint),
    g.interfaces = [some i] ∧ i.endpoints = eps.map some ∧
      ∀ ep ∈ eps, 6 < ep.descriptor.bLength.toNat

theorem InterfaceGroup.Single.active {g : InterfaceGroup} (h : g.Single) :
    ∃ (i : Interface) (eps : List Endpoint), g.getActiveInterface = some i ∧
      g.alternates.reduceOption = [i] ∧ i.endpoints = eps.map some ∧ ∀ ep ∈ eps, 6 < ep.descriptor.bLength.toNat := by
  obtain ⟨hactive, i, eps, hints, heps, hlen⟩ := h
  have halt : g.alternates = [some i] := by
    rw [alternates_of_length_le (by rw [hints]; exact (by decide : 1 ≤ 255)), hints]
  refine ⟨i, eps, ?_, by rw [halt]; rfl, heps, hlen⟩
  have hcount : ¬ g.alternateCount ≤ UInt8.ofNat (0 : ℤ).toNat := by
    rw [g.count_eq, hints]
    show ¬ (1 : Byte) ≤ 0
    decide
  unfold getActiveInterface getInterface
  rw [hactive, if_neg (by decide), if_neg hcount, hints]
  rfl

/-- The loop comes to the active alternate setting of each group. -/
theorem Configuration.activeInterfaces_of_groups {c : Configuration} {gs : List InterfaceGroup}
    (hgs : c.interfaceGroups = gs.map some) :
    c.activeInterfaces c.descriptor.bNumInterfaces = gs.map InterfaceGroup.getActiveInterface := by
  have hn : c.descriptor.bNumInterfaces.toNat = gs.length := by
    rw [← c.groups_length, hgs, List.length_map]
  refine List.ext_getElem (by simp [activeInterfaces, hn]) fun k hk hk' => ?_
  rw [List.length_map] at hk'
  have hlt : k < c.descriptor.bNumInterfaces.toNat := by omega
  have hof : (UInt8.ofNat k).toNat = k := toNat_ofNat_of_lt hlt
  have hle : ¬ c.descriptor.bNumInterfaces ≤ UInt8.ofNat k := by
    rw [UInt8.le_iff_toNat_le, hof]
    omega
  simp only [activeInterfaces, List.getElem_map, List.getElem_range, getInterface, group, if_neg hle,
    hof, hgs, List.getElem?_map, List.getElem?_eq_getElem hk', Option.map_some, Option.join_some,
    Option.bind_some]

/-- Groups of one alternate setting each are in line. -/
theorem inLine_of_single {gs : List InterfaceGroup} (hsingle : ∀ g ∈ gs, g.Single)
    (front : List (Bool × List Byte)) :
    InLine (front ++ gs.flatMap fun g => g.alternates.reduceOption.flatMap Interface.pieces)
      (front.flatMap Prod.snd).length (gs.map InterfaceGroup.getActiveInterface) := by
  induction gs generalizing front with
  | nil => exact .nil _
  | cons g gs ih =>
    obtain ⟨hg, hgs⟩ := List.forall_mem_cons.1 hsingle
    obtain ⟨i, eps, hi, halt, heps, hlen⟩ := hg.active
    have hcount : i.descriptor.bNumEndpoints.toNat = eps.length := by
      rw [← i.endpoints_length, heps, List.length_map]
    have hrest := ih hgs (front ++ i.pieces)
    have hrow := endpointRow_of_pieces (front ++
      ((false, fromStruct i.descriptor.bytes i.descriptor.bLength) ::
        i.hidDescriptor.toList.map (fun hid => (false, hid.bytes)) ++
        i.genericDescriptors.entries.map fun d => (false, d.bytes)))
      (gs.flatMap fun g => g.alternates.reduceOption.flatMap Interface.pieces) hlen
    rw [List.append_assoc front, @List.flatMap_append _ _ front, List.length_append,
      i.length_own, ← hcount] at hrow
    have hpieces : ((false, fromStruct i.descriptor.bytes i.descriptor.bLength) ::
        i.hidDescriptor.toList.map (fun hid => (false, hid.bytes)) ++
        i.genericDescriptors.entries.map fun d => (false, d.bytes)) ++
        eps.map (fun ep => (true, ep.getFullDescriptor)) = i.pieces := by
      unfold Interface.pieces
      rw [heps, reduceOption_map_some]
    rw [hpieces] at hrow
    rw [List.map_cons, hi, List.flatMap_cons, halt, List.flatMap_singleton, ← List.append_assoc]
    exact .cons hrow hrest

/-- With one alternate setting for each interface everything is aligned. -/
theorem Configuration.aligned_of_single {c : Configuration} {gs : List InterfaceGroup}
    (hgs : c.interfaceGroups = gs.map some) (hsingle : ∀ g ∈ gs, g.Single) : c.Aligned := by
  have hline := inLine_of_single hsingle
    [(false, fromStruct c.descriptor.bytes c.descriptor.bLength)]
  rw [List.flatMap_singleton, fromStruct, List.takeD_length] at hline
  unfold Aligned pieces
  rw [activeInterfaces_of_groups hgs, hgs, reduceOption_map_some]
  exact hline

namespace Device

theorem hsBlocks_cons {highspeed : Bool} {newValue : Byte → Byte} {c : Configuration}
    {cs : List Configuration} {blocks : List (List Byte)} :
    hsBlocks highspeed newValue (c :: cs) = some blocks ↔
      ∃ block rest, c.hsBlock highspeed newValue = some block ∧
        hsBlocks highspeed newValue cs = some rest ∧ blocks = block :: rest := by
  simp only [hsBlocks, Option.bind_eq_some_iff, Option.map_eq_some_iff]
  constructor
  · rintro ⟨block, hblock, rest, hrest, rfl⟩
    exact ⟨block, rest, hblock, hrest, rfl⟩
  · rintro ⟨block, rest, hblock, hrest, rfl⟩
    exact ⟨block, hblock, rest, hrest, rfl⟩

/-- All blocks are there and each is as it should be, exactly when that is so of each. -/
theorem hsBlocks_forall₂_iff {highspeed : Bool} {newValue : Byte → Byte}
    {R : Configuration → List Byte → Prop} {cs : List Configuration} :
    (∃ blocks, hsBlocks highspeed newValue cs = some blocks ∧ List.Forall₂ R cs blocks) ↔
      ∀ c ∈ cs, ∃ block, c.hsBlock highspeed newValue = some block ∧ R c block := by
  induction cs with
  | nil => exact iff_of_true ⟨[], rfl, .nil⟩ (by simp)
  | cons c cs ih =>
    rw [List.forall_mem_cons, ← ih]
    constructor
    · rintro ⟨blocks, hsome, hall⟩
      obtain ⟨block, rest, hblock, hrest, rfl⟩ := hsBlocks_cons.1 hsome
      obtain ⟨hR, hall⟩ := List.forall₂_cons.1 hall
      exact ⟨⟨block, hblock, hR⟩, rest, hrest, hall⟩
    · rintro ⟨⟨block, hblock, hR⟩, rest, hrest, hall⟩
      exact ⟨block :: rest, hsBlocks_cons.2 ⟨block, rest, hblock, hrest, rfl⟩, .cons hR hall⟩

end Device

/-! ## Two devices -/

/-- An interface descriptor. -/
def ifcDescriptor (number alternate endpoints cls : Byte) : UsbInterfaceDescriptor :=
  { bLength := 9, bDescriptorType := USB_DT_INTERFACE, bInterfaceNumber := number
    bAlternateSetting := alternate, bNumEndpoints := endpoints, bInterfaceClass := cls
    bInterfaceSubClass := 0, bInterfaceProtocol := 0, iInterface := 0 }

def interruptEndpoint (address : Byte) : Endpoint where
  descriptor :=
    { bLength := 7, bDescriptorType := USB_DT_ENDPOINT, bEndpointAddress := address, bmAttributes := 3
      wMaxPacketSize := 8, bInterval := 10, bRefresh := 0, bSynchAddress := 0 }

/-- An interface with one endpoint. -/
def oneEndpoint (number alternate cls address : Byte) (hid : Option HID) : Interface where
  descriptor := ifcDescriptor number alternate 1 cls
  endpoints := [some (interruptEndpoint address)]
  hidDescriptor := hid
  genericDescriptors := .none
  endpoints_length := rfl

/-- The group of one interface number, the first alternate setting active. -/
def activeGroup (number : Byte) (is : List Interface) (h : is.length ≤ 256) : InterfaceGroup where
  number := number
  alternateCount := UInt8.ofNat is.length
  interfaces := is.map some
  activeAlternateIndex := 0
  count_eq := by rw [List.length_map]
  length_le := by rwa [List.length_map]

def configurationOf (wTotalLength : UInt16) (groups : List InterfaceGroup)
    (h : groups.length < 256) : Configuration where
  descriptor :=
    { bLength := 9, bDescriptorType := USB_DT_CONFIG, wTotalLength
      bNumInterfaces := UInt8.ofNat groups.length, bConfigurationValue := 1, iConfiguration := 0
      bmAttributes := 0xA0, bMaxPower := 50 }
  interfaceGroups := groups.map some
  groups_length := by rw [List.length_map, UInt8.toNat_ofNat_of_lt' h]

/-- A full-speed device with one configuration. -/
def fullSpeed (c : Configuration) : Device where
  bNumConfigurations := 1
  configurations := [some c]
  configurations_length := rfl
  deviceConfigurationIndex := 1
  qualifier := none
  highspeed := false

def hidRecord : HID := ⟨[9, 0x21, 0x11, 0x01, 0, 1, 0x22, 65, 0], rfl⟩

/-- A keyboard. -/
def bootKeyboard : Configuration :=
  configurationOf 34 [activeGroup 0 [oneEndpoint 0 0 3 0x81 (some hidRecord)] (by decide)] (by decide)

theorem bootKeyboard_aligned : bootKeyboard.Aligned := by
  have hgroups : bootKeyboard.interfaceGroups =
      [activeGroup 0 [oneEndpoint 0 0 3 0x81 (some hidRecord)] (by decide)].map some := rfl
  refine Configuration.aligned_of_single hgroups fun g hg => ?_
  rw [List.mem_singleton] at hg
  rw [hg]
  exact ⟨rfl, _, [_], rfl, rfl, fun ep hep => by rw [List.mem_singleton.1 hep]; decide⟩

/-- Two alternate settings in front of a keyboard. -/
def twoAlternates : Configuration :=
  configurationOf 66
    [activeGroup 0 [oneEndpoint 0 0 0xff 0x82 none, oneEndpoint 0 1 0xff 0x82 none] (by decide),
      activeGroup 1 [oneEndpoint 1 0 3 0x81 (some hidRecord)] (by decide)] (by decide)

end UsbProxy
