import Mathlib.Data.List.Forall2
import Mathlib.Data.List.TakeWhile
import UsbProxy.GadgetBuffer

/-!
# What the kernel finds in the descriptor

The gadget file system reads `descriptor` by the `wTotalLength` of each block.  `recovered_iff` says for
which devices it finds the configurations the device has, and each as `get_full_descriptor` wrote it.
-/

namespace UsbProxy

open Patches Copies

def announced (block : List Byte) : ℕ := (leWord (block.getD 2 0) (block.getD 3 0)).toNat

/-- `descriptor` behind the copies into a fresh buffer and the `realloc` to `descriptorLength`. -/
def GadgetDescriptor.blob (g : GadgetDescriptor) (uninit : List Byte) : List Byte :=
  let blocks := [0, 0, 0, 0] :: (g.fsBlocks ++ g.hsBlocks ++ [g.device])
  (writeAll uninit 0 blocks).take blocks.flatten.length

/-- The block of a configuration in the descriptor: its full descriptor with the type of a configuration,
without remote wakeup, and with its own length; `converted` says whether the intervals may differ. -/
structure Configuration.BlockOf (c : Configuration) (converted : Bool) (block : List Byte) : Prop where
  kept : AgreeOff (fun q => q ∈ headerFields ∨ converted = true ∧ q ∈ intervals c.pieces 0) block
    c.getFullDescriptor
  type_eq : block[1]? = some USB_DT_CONFIG
  attributes_eq : block[7]? = (c.getFullDescriptor[7]?).map (· &&& ~~~USB_CONFIG_ATT_WAKEUP)
  total_eq : announced block = c.getFullDescriptor.length

namespace Device

/-- The blob `generate_descriptor` leaves. -/
def generatedBlob (d : Device) (descriptor : List Byte) (newValue : Byte → Byte) (uninit : List Byte) :
    Option (List Byte) :=
  (d.generateDescriptor descriptor newValue).map fun g => g.blob uninit

/-- The configurations a device has for one speed, in the order of their values. -/
def available (d : Device) (other : Bool) : List Configuration :=
  (List.range' 1 255).filterMap fun i => d.lookUp other (UInt8.ofNat i)

/-- The blob is the tag, the blocks of the configurations and the device descriptor, and the walk finds
these blocks. -/
def Recovered (d : Device) (descriptor : List Byte) (newValue : Byte → Byte) (uninit : List Byte) :
    Prop :=
  ∃ fs hs, List.Forall₂ (fun c b => c.BlockOf false b) (d.available d.highspeed) fs ∧
    List.Forall₂ (fun c b => c.BlockOf (!d.highspeed) b) (d.available !d.highspeed) hs ∧
    d.generatedBlob descriptor newValue uninit =
      some ([0, 0, 0, 0] ++ (fs ++ hs).flatten ++ descriptor) ∧
    walk announced deviceDescriptorSize ((fs ++ hs).flatten ++ descriptor) = some (fs ++ hs, descriptor)

/-- The qualifier has no configuration whose value is above the device's `bNumConfigurations`. -/
def Covered (d : Device) : Prop :=
  ∀ q, d.qualifier = some q → ∀ i, d.bNumConfigurations < i → q.getConfiguration i = none

end Device

/-! ## One block -/

namespace Configuration

variable {c : Configuration} {block : List Byte} {converted : Bool} {q : ℕ}

theorem length_fsBlock (c : Configuration) : c.fsBlock.length = c.getFullDescriptor.length :=
  c.fsBlock_agrees.1

theorem le_length (h : 9 ≤ c.descriptor.bLength.toNat) : 9 ≤ c.getFullDescriptor.length := by
  rw [length_getFullDescriptor]
  exact Nat.le_trans h (Nat.le_add_right ..)

theorem le_of_mem_intervals (h : 9 ≤ c.descriptor.bLength.toNat) (hq : q ∈ intervals c.pieces 0) :
    15 ≤ q := by
  have hhead : (fromStruct c.descriptor.bytes c.descriptor.bLength).length =
      c.descriptor.bLength.toNat := List.takeD_length ..
  have hrest := (bounds_of_mem_intervals (show q ∈ intervals _ (0 + _) from hq)).1
  omega

theorem blockOf_fsBlock (h : 9 ≤ c.descriptor.bLength.toNat) (hlt : c.getFullDescriptorLength < 65536) :
    c.BlockOf false c.fsBlock := by
  have hlen := le_length h
  have hw : (UInt16.ofNat c.getFullDescriptorLength).toNat = c.getFullDescriptorLength :=
    UInt16.toNat_ofNat_of_lt' hlt
  refine ⟨?_, ?_, ?_, ?_⟩
  · exact ⟨c.fsBlock_agrees.1, fun q hq => c.fsBlock_agrees.2 q fun hf => hq (.inl hf)⟩
  · unfold fsBlock setHeader
    simp only [List.getElem?_set, List.length_set]
    simp [show 1 < c.getFullDescriptor.length by omega]
  · unfold fsBlock setHeader
    simp only [List.getElem?_set, List.length_set]
    rw [if_neg (by omega), if_neg (by omega), if_pos trivial, if_pos (by omega),
      List.getElem?_eq_getElem (by omega), Option.map_some, List.getD_eq_getElem?_getD,
      List.getElem?_eq_getElem (by omega), Option.getD_some]
  · have h2 : c.fsBlock.getD 2 0 = UInt8.ofNat (c.getFullDescriptorLength % 256) := by
      unfold fsBlock setHeader
      rw [List.getD_eq_getElem?_getD, List.getElem?_set_ne (by omega), List.getElem?_set_self
        (by simp only [List.length_set]; omega), hw]
      rfl
    have h3 : c.fsBlock.getD 3 0 = UInt8.ofNat (c.getFullDescriptorLength / 256) := by
      unfold fsBlock setHeader
      rw [List.getD_eq_getElem?_getD, List.getElem?_set_self (by simp only [List.length_set]; omega),
        hw]
      rfl
    have hword := leWord_leBytes (UInt16.ofNat c.getFullDescriptorLength)
    rw [hw] at hword
    rw [announced, h2, h3, hword, hw, length_getFullDescriptor]

theorem BlockOf.convert (h : 9 ≤ c.descriptor.bLength.toNat) {orig : List Byte}
    (horig : c.BlockOf false orig) (hag : AgreeOff (fun q => q ∈ intervals c.pieces 0) block orig) :
    c.BlockOf true block := by
  have hhead : ∀ q, q < 9 → block[q]? = orig[q]? := fun q hq =>
    hag.2 q fun hmem => by have := le_of_mem_intervals h hmem; omega
  refine ⟨⟨hag.1.trans horig.kept.1, fun q hq => ?_⟩, ?_, ?_, ?_⟩
  · rw [hag.2 q fun hi => hq (.inr ⟨rfl, hi⟩)]
    apply horig.kept.2
    rintro (hf | ⟨hfalse, -⟩)
    · exact hq (.inl hf)
    · cases hfalse
  · rw [hhead 1 (by omega), horig.type_eq]
  · rw [hhead 7 (by omega), horig.attributes_eq]
  · rw [← horig.total_eq, announced, announced]
    simp only [List.getD_eq_getElem?_getD]
    rw [hhead 2 (by omega), hhead 3 (by omega)]

theorem BlockOf.length_eq (h : c.BlockOf converted block) :
    block.length = c.getFullDescriptorLength :=
  h.kept.1.trans c.length_getFullDescriptor

theorem BlockOf.announced_append (h : c.BlockOf converted block) (h9 : 9 ≤ c.descriptor.bLength.toNat)
    (rest : List Byte) : announced (block ++ rest) = block.length := by
  have hlen := h.kept.1
  have := le_length h9
  rw [hlen, ← h.total_eq, announced, announced]
  simp only [List.getD_eq_getElem?_getD]
  rw [List.getElem?_append_left (by omega), List.getElem?_append_left (by omega)]

theorem length_hsBlock {highspeed : Bool} {newValue : Byte → Byte}
    (h : c.hsBlock highspeed newValue = some block) : block.length = c.getFullDescriptorLength := by
  rw [← length_getFullDescriptor, ← length_fsBlock]
  unfold hsBlock at h
  dsimp only at h
  split_ifs at h with hs
  · rw [← Option.some.inj h]
    rfl
  · obtain ⟨ms, -, hrun⟩ := Option.bind_eq_some_iff.1 h
    exact length_run hrun

theorem interfacesActive_of_hsBlock {newValue : Byte → Byte}
    (h : c.hsBlock false newValue = some block) : c.interfacesActive = true := by
  obtain ⟨ms, hms, -⟩ := Option.bind_eq_some_iff.1 h
  exact Option.isSome_iff_exists.2 ⟨ms, hms⟩

end Configuration

/-! ## The blocks of both loops -/

/-- Blocks as long as the full descriptors. -/
def Sized : List Configuration → List (List Byte) → Prop :=
  List.Forall₂ fun c b => b.length = c.getFullDescriptorLength

theorem Sized.map_length {cs : List Configuration} {bs : List (List Byte)} (h : Sized cs bs) :
    bs.map List.length = cs.map Configuration.getFullDescriptorLength := by
  induction h with
  | nil => rfl
  | cons hb _ ih => rw [List.map_cons, List.map_cons, hb, ih]

theorem Sized.length_flatten {cs : List Configuration} {bs : List (List Byte)} (h : Sized cs bs) :
    bs.flatten.length = total Configuration.getFullDescriptorLength cs := by
  induction h with
  | nil => rfl
  | cons hb _ ih => rw [List.flatten_cons, List.length_append, ih, hb, total]

/-- Blocks of given lengths are determined by what they make in a row. -/
theorem Sized.eq_of_flatten_eq {cs : List Configuration} {bs bs' : List (List Byte)}
    (h : Sized cs bs) (h' : Sized cs bs') (heq : bs.flatten = bs'.flatten) : bs = bs' :=
  List.eq_iff_flatten_eq.2 ⟨heq, by rw [h.map_length, h'.map_length]⟩

/-- Copies that fit leave the blocks in a row. -/
theorem GadgetDescriptor.blob_eq (g : GadgetDescriptor) {uninit : List Byte}
    (h : g.bytes.length ≤ uninit.length) : g.blob uninit = g.bytes := by
  have hrow : ([0, 0, 0, 0] :: (g.fsBlocks ++ g.hsBlocks ++ [g.device])).flatten = g.bytes := by
    simp [bytes]
  have hall := take_writeAll uninit 0 ([0, 0, 0, 0] :: (g.fsBlocks ++ g.hsBlocks ++ [g.device]))
    (by rw [hrow, Nat.zero_add]; exact h)
  rw [Nat.zero_add, List.take_zero, List.nil_append, hrow] at hall
  unfold blob
  dsimp only
  rw [hrow]
  exact hall

namespace Device

variable {d : Device} {descriptor : List Byte} {newValue : Byte → Byte}

/-- The configurations of values the loops do not come to. -/
def uncovered (d : Device) (other : Bool) : List Configuration :=
  (List.range' (1 + d.bNumConfigurations.toNat) (255 - d.bNumConfigurations.toNat)).filterMap fun i =>
    d.lookUp other (UInt8.ofNat i)

theorem available_eq (d : Device) (other : Bool) :
    d.available other = d.configurationsFor other ++ d.uncovered other := by
  have hn := d.bNumConfigurations.toNat_lt
  have hsplit := List.range'_append_1 (s := 1) (m := d.bNumConfigurations.toNat)
    (n := 255 - d.bNumConfigurations.toNat)
  rw [show d.bNumConfigurations.toNat + (255 - d.bNumConfigurations.toNat) = 255 by omega] at hsplit
  unfold available configurationsFor uncovered
  rw [← hsplit, List.filterMap_append]

theorem mem_of_available {other : Bool} {c : Configuration} (h : c ∈ d.available other) :
    some c ∈ d.configurations ∨ ∃ q, d.qualifier = some q ∧ some c ∈ q.configurations := by
  have htable : ∀ (t : ConfigurationTable) (i : Byte), t.getConfiguration i = some c →
      some c ∈ t.configurations := by
    intro t i hi
    unfold ConfigurationTable.getConfiguration at hi
    split_ifs at hi
    exact List.mem_of_getElem? (Option.join_eq_some_iff.1 hi)
  obtain ⟨i, -, hi⟩ := List.mem_filterMap.1 h
  unfold lookUp at hi
  cases hq : d.qualifier with
  | none =>
    rw [hq] at hi
    exact .inl (htable _ _ hi)
  | some q =>
    rw [hq] at hi
    cases other with
    | true => exact .inr ⟨q, rfl, htable q _ hi⟩
    | false => exact .inl (htable _ _ hi)

theorem covered_iff : d.Covered ↔ ∀ other, d.uncovered other = [] := by
  have hmem : ∀ i ∈ List.range' (1 + d.bNumConfigurations.toNat) (255 - d.bNumConfigurations.toNat),
      d.bNumConfigurations < UInt8.ofNat i := by
    intro i hi
    rw [List.mem_range'_1] at hi
    rw [UInt8.lt_iff_toNat_lt, UInt8.toNat_ofNat_of_lt' (show i < 256 by omega)]
    omega
  have hown : ∀ i, d.bNumConfigurations < i → d.getConfiguration i = none := fun i hi =>
    if_pos (.inl hi)
  constructor
  · intro h other
    apply List.filterMap_eq_nil_iff.2
    intro i hi
    unfold lookUp
    cases hq : d.qualifier with
    | none => exact hown _ (hmem i hi)
    | some q =>
      cases other with
      | true => exact h q hq _ (hmem i hi)
      | false => exact hown _ (hmem i hi)
  · intro h q hq i hi
    have hall := List.filterMap_eq_nil_iff.1 (h true) i.toNat (by
      have := UInt8.lt_iff_toNat_lt.1 hi
      have := i.toNat_lt
      rw [List.mem_range'_1]
      omega)
    unfold lookUp at hall
    rw [hq, UInt8.ofNat_toNat] at hall
    exact hall

theorem sized_fsBlocks (cs : List Configuration) : Sized cs (cs.map Configuration.fsBlock) := by
  induction cs with
  | nil => exact .nil
  | cons c cs ih => exact .cons (c.length_fsBlock.trans c.length_getFullDescriptor) ih

theorem sized_hsBlocks {highspeed : Bool} {cs : List Configuration} {blocks : List (List Byte)}
    (h : hsBlocks highspeed newValue cs = some blocks) : Sized cs blocks := by
  induction cs generalizing blocks with
  | nil =>
    rw [← Option.some.inj h]
    exact .nil
  | cons c cs ih =>
    obtain ⟨block, rest, hblock, hrest, rfl⟩ := hsBlocks_cons.1 h
    exact .cons (Configuration.length_hsBlock hblock) (ih hrest)

theorem all_passes {cs : List Configuration} {blocks : List (List Byte)}
    (h : hsBlocks d.highspeed newValue cs = some blocks) : ∀ c ∈ cs, d.passes c = true := by
  induction cs generalizing blocks with
  | nil => simp
  | cons c cs ih =>
    obtain ⟨block, rest, hblock, hrest, -⟩ := hsBlocks_cons.1 h
    refine List.forall_mem_cons.2 ⟨?_, ih hrest⟩
    unfold passes
    cases hs : d.highspeed with
    | true => rfl
    | false =>
      rw [hs] at hblock
      exact Configuration.interfacesActive_of_hsBlock hblock

/-- The bytes asked for when the second loop comes to its end. -/
theorem demand_eq {blocks : List (List Byte)}
    (h : hsBlocks d.highspeed newValue d.hsConfigurations = some blocks)
    (hlt : ∀ c ∈ d.emitted, c.getFullDescriptorLength < 65536) :
    d.emitted = d.configurationsFor d.highspeed ++ d.hsConfigurations ∧
      d.demand = 4 + total Configuration.getFullDescriptorLength
        (d.configurationsFor d.highspeed ++ d.hsConfigurations) + 18 := by
  have hpass := all_passes h
  have hemitted : d.emitted = d.configurationsFor d.highspeed ++ d.hsConfigurations := by
    unfold emitted
    rw [List.takeWhile_eq_self_iff.2 hpass]
  have hcopied : total Configuration.copied d.emitted =
      total Configuration.getFullDescriptorLength d.emitted := by
    apply total_congr
    intro c hc
    have := hlt c hc
    exact Nat.mod_eq_of_lt (show _ < 4294967296 by omega)
  refine ⟨hemitted, ?_⟩
  unfold demand
  rw [hcopied, hemitted, if_pos (List.all_eq_true.2 hpass)]
  rfl

/-! ## Recovering the configurations -/

theorem sized_of_blockOf {converted : Bool} {cs : List Configuration} {bs : List (List Byte)}
    (h : List.Forall₂ (fun c b => c.BlockOf converted b) cs bs) : Sized cs bs :=
  h.imp fun _ _ hb => hb.length_eq

theorem announced_of_blockOf {converted : Bool} {cs : List Configuration} {bs : List (List Byte)}
    (h : List.Forall₂ (fun c b => c.BlockOf converted b) cs bs)
    (hheader : ∀ c ∈ cs, c.descriptor.bLength = 9) :
    ∀ b ∈ bs, b ≠ [] ∧ ∀ rest, announced (b ++ rest) = b.length := by
  induction h with
  | nil => simp
  | @cons c b cs bs hb _ ih =>
    obtain ⟨hc, hcs⟩ := List.forall_mem_cons.1 hheader
    have h9 : 9 ≤ c.descriptor.bLength.toNat := by rw [hc]; decide
    have hlen := hb.kept.1
    have hle := Configuration.le_length h9
    refine List.forall_mem_cons.2 ⟨⟨?_, hb.announced_append h9⟩, ih hcs⟩
    rintro rfl
    exact absurd hlen (by rw [List.length_nil]; omega)

theorem generatedBlob_eq (hdescriptor : descriptor.length = deviceDescriptorSize)
    (hlt : ∀ c ∈ d.emitted, c.getFullDescriptorLength < 65536) (hfit : d.demand ≤ USB_BUFSIZE)
    {uninit : List Byte} (huninit : uninit.length = USB_BUFSIZE) {blocks : List (List Byte)}
    (h : hsBlocks d.highspeed newValue d.hsConfigurations = some blocks) :
    d.generatedBlob descriptor newValue uninit =
      some ([0, 0, 0, 0] ++
        ((d.configurationsFor d.highspeed).map Configuration.fsBlock ++ blocks).flatten ++
          descriptor) := by
  obtain ⟨-, hdemand⟩ := demand_eq h hlt
  have hfs := (sized_fsBlocks (d.configurationsFor d.highspeed)).length_flatten
  have hhs := (sized_hsBlocks h).length_flatten
  rw [total_append] at hdemand
  unfold generatedBlob generateDescriptor
  rw [if_pos ((copies_inside_iff d).2 hfit), h, Option.map_some, Option.map_some,
    GadgetDescriptor.blob_eq]
  · simp [GadgetDescriptor.bytes]
  · unfold deviceDescriptorSize at hdescriptor
    simp only [GadgetDescriptor.bytes, List.length_append, List.length_cons, List.length_nil, hfs, hhs,
      hdescriptor, huninit]
    omega

section Recovered

variable (hdescriptor : descriptor.length = deviceDescriptorSize)
  (hheader : ∀ other, ∀ c ∈ d.available other, c.descriptor.bLength = 9)
  (hlt : ∀ c ∈ d.emitted, c.getFullDescriptorLength < 65536) (hfit : d.demand ≤ USB_BUFSIZE)

include hheader in
theorem nine_le {other : Bool} {c : Configuration} (hc : c ∈ d.available other) :
    9 ≤ c.descriptor.bLength.toNat := by
  rw [hheader other c hc]
  decide

include hheader in
theorem nine_le_of_configurationsFor {other : Bool} {c : Configuration}
    (hc : c ∈ d.configurationsFor other) : 9 ≤ c.descriptor.bLength.toNat :=
  nine_le hheader (by rw [available_eq]; exact List.mem_append_left _ hc)

include hheader in
/-- A configuration that is left out would have at least its header. -/
theorem uncovered_eq_nil {other : Bool}
    (hzero : total Configuration.getFullDescriptorLength (d.uncovered other) = 0) :
    d.uncovered other = [] := by
  cases hun : d.uncovered other with
  | nil => rfl
  | cons c cs =>
    have hmem : c ∈ d.available other := by
      rw [available_eq, hun]
      exact List.mem_append_right _ (List.mem_cons_self ..)
    have hc := nine_le hheader hmem
    have hle := Configuration.le_length hc
    rw [Configuration.length_getFullDescriptor] at hle
    rw [hun, total] at hzero
    omega

include hdescriptor hlt hfit in
/-- If the blob is what is to be found, so are the blocks that were made. -/
theorem flatten_of_recovered {uninit : List Byte} (huninit : uninit.length = USB_BUFSIZE)
    (h : d.Recovered descriptor newValue uninit) : ∃ fs hs blocks,
      List.Forall₂ (fun c b => c.BlockOf false b) (d.available d.highspeed) fs ∧
      List.Forall₂ (fun c b => c.BlockOf (!d.highspeed) b) (d.available !d.highspeed) hs ∧
      hsBlocks d.highspeed newValue d.hsConfigurations = some blocks ∧
      ((d.configurationsFor d.highspeed).map Configuration.fsBlock ++ blocks).flatten =
        (fs ++ hs).flatten := by
  obtain ⟨fs, hs, hfs, hhs, hblob, -⟩ := h
  obtain ⟨g, hg, -⟩ := Option.map_eq_some_iff.1 hblob
  obtain ⟨-, blocks, hblocks, -⟩ := generateDescriptor_eq_some.1 hg
  rw [generatedBlob_eq hdescriptor hlt hfit huninit hblocks, Option.some.injEq,
    List.append_left_inj, List.append_right_inj] at hblob
  exact ⟨fs, hs, blocks, hfs, hhs, hblocks, hblob⟩

include hdescriptor hheader hlt hfit in
/-- Then nothing is left out: the lengths say so. -/
theorem covered_of_recovered {uninit : List Byte} (huninit : uninit.length = USB_BUFSIZE)
    (h : d.Recovered descriptor newValue uninit) : d.Covered := by
  obtain ⟨fs, hs, blocks, hfs, hhs, hblocks, heq⟩ :=
    flatten_of_recovered hdescriptor hlt hfit huninit h
  have hlen := congrArg List.length heq
  rw [List.flatten_append, List.flatten_append, List.length_append, List.length_append,
    (sized_fsBlocks _).length_flatten, (sized_hsBlocks hblocks).length_flatten,
    (sized_of_blockOf hfs).length_flatten, (sized_of_blockOf hhs).length_flatten, available_eq,
    available_eq, total_append, total_append] at hlen
  unfold hsConfigurations at hlen
  refine covered_iff.2 fun other => uncovered_eq_nil hheader ?_
  by_cases hother : other = d.highspeed
  · rw [hother]
    omega
  · rw [Bool.eq_not.2 hother]
    omega

include hdescriptor hheader hlt hfit in
/-- And the walk that converts the intervals is aligned. -/
theorem aligned_of_recovered {uninit : List Byte} (huninit : uninit.length = USB_BUFSIZE)
    (h : ∀ newValue, d.Recovered descriptor newValue uninit) (hspeed : d.highspeed = false) :
    ∀ c ∈ d.hsConfigurations, c.Aligned := by
  have hcovered := covered_iff.1 (covered_of_recovered hdescriptor hheader hlt hfit huninit (h id))
  intro c hc
  refine (Configuration.hsBlock_iff (nine_le_of_configurationsFor hheader hc)).1 fun newValue => ?_
  obtain ⟨fs, hs, blocks, hfs, hhs, hblocks, heq⟩ :=
    flatten_of_recovered hdescriptor hlt hfit huninit (h newValue)
  rw [available_eq, hcovered, List.append_nil] at hfs hhs
  have hblock : (d.configurationsFor d.highspeed).map Configuration.fsBlock ++ blocks = fs ++ hs :=
    Sized.eq_of_flatten_eq (List.rel_append (sized_fsBlocks _) (sized_hsBlocks hblocks))
      (List.rel_append (sized_of_blockOf hfs) (sized_of_blockOf hhs)) heq
  obtain ⟨-, rfl⟩ := List.append_inj hblock (by rw [List.length_map, hfs.length_eq])
  rw [hspeed] at hblocks
  refine hsBlocks_forall₂_iff.1 ⟨blocks, hblocks, hhs.imp fun c b hb => ?_⟩ c hc
  exact ⟨hb.kept.1, fun q hq => hb.kept.2 q fun hor => hq (hor.imp_right And.right)⟩

include hheader hlt in
theorem hsBlocks_of_aligned (haligned : d.highspeed = false → ∀ c ∈ d.hsConfigurations, c.Aligned)
    (newValue : Byte → Byte) : ∃ blocks,
      hsBlocks d.highspeed newValue d.hsConfigurations = some blocks ∧
      List.Forall₂ (fun c b => c.BlockOf false b) (d.configurationsFor d.highspeed)
        ((d.configurationsFor d.highspeed).map Configuration.fsBlock) ∧
      List.Forall₂ (fun c b => c.BlockOf (!d.highspeed) b) d.hsConfigurations blocks := by
  have hblock : ∀ c ∈ d.hsConfigurations, ∃ block, c.hsBlock d.highspeed newValue = some block ∧
      AgreeOff (fun q => d.highspeed = false ∧ q ∈ intervals c.pieces 0) block c.fsBlock := by
    intro c hc
    cases hs : d.highspeed with
    | true => exact ⟨c.fsBlock, rfl, .refl _⟩
    | false =>
      obtain ⟨block, hblock, hag⟩ := Configuration.hsBlock_of_aligned
        (nine_le_of_configurationsFor hheader hc) (haligned hs c hc) newValue
      exact ⟨block, hblock, hag.1, fun q hq => hag.2 q fun hi => hq ⟨rfl, hi⟩⟩
  obtain ⟨_, hsome, -⟩ := hsBlocks_forall₂_iff.2 hblock
  obtain ⟨hemitted, -⟩ := demand_eq hsome hlt
  rw [hemitted, List.forall_mem_append] at hlt
  obtain ⟨blocks, hblocks, hhs⟩ := hsBlocks_forall₂_iff.2 fun c hc => by
    obtain ⟨block, hsome, hag⟩ := hblock c hc
    have h9 := nine_le_of_configurationsFor hheader hc
    have hfs := Configuration.blockOf_fsBlock h9 (hlt.2 c hc)
    refine ⟨block, hsome, show c.BlockOf (!d.highspeed) block from ?_⟩
    cases hs : d.highspeed with
    | true =>
      have heq : block = c.fsBlock := List.ext_getElem? fun q => hag.2 q fun h => by
        rw [hs] at h
        exact Bool.noConfusion h.1
      rw [heq]
      exact hfs
    | false => exact hfs.convert h9 ⟨hag.1, fun q hq => hag.2 q fun h => hq h.2⟩
  exact ⟨blocks, hblocks, List.forall₂_map_right_iff.2 (List.forall₂_same.2 fun c hc =>
    Configuration.blockOf_fsBlock (nine_le_of_configurationsFor hheader hc) (hlt.1 c hc)), hhs⟩

end Recovered

/-- **The blob the kernel walks.**  It holds the configurations the device has, and the walk by
`wTotalLength` recovers them, exactly when the loops come to all of them and the walk that converts the
intervals of a full-speed device is aligned. -/
theorem recovered_iff (d : Device) (descriptor : List Byte)
    (hdescriptor : descriptor.length = deviceDescriptorSize)
    (hheader : ∀ other, ∀ c ∈ d.available other, c.descriptor.bLength = 9)
    (hlt : ∀ c ∈ d.emitted, c.getFullDescriptorLength < 65536) (hfit : d.demand ≤ USB_BUFSIZE) :
    (∀ newValue uninit, uninit.length = USB_BUFSIZE → d.Recovered descriptor newValue uninit) ↔
      d.Covered ∧ (d.highspeed = false → ∀ c ∈ d.hsConfigurations, c.Aligned) := by
  constructor
  · intro h
    have hmake := List.length_replicate (n := USB_BUFSIZE) (a := (0 : Byte))
    exact ⟨covered_of_recovered hdescriptor hheader hlt hfit hmake (h id _ hmake),
      aligned_of_recovered hdescriptor hheader hlt hfit hmake fun newValue => h newValue _ hmake⟩
  · rintro ⟨hcovered, haligned⟩ newValue uninit huninit
    rw [covered_iff] at hcovered
    obtain ⟨blocks, hblocks, hfs, hhs⟩ := hsBlocks_of_aligned hheader hlt haligned newValue
    have havailable : ∀ other, d.available other = d.configurationsFor other := fun other => by
      rw [available_eq, hcovered, List.append_nil]
    refine ⟨_, blocks, by rw [havailable]; exact hfs, by rw [havailable]; exact hhs,
      generatedBlob_eq hdescriptor hlt hfit huninit hblocks, ?_⟩
    rw [← hdescriptor]
    apply walk_flatten
    intro b hb
    have hall : ∀ other, ∀ c ∈ d.configurationsFor other, c.descriptor.bLength = 9 := fun other c hc =>
      hheader other c (by rw [havailable]; exact hc)
    rcases List.mem_append.1 hb with hb | hb
    · exact announced_of_blockOf hfs (hall _) b hb
    · exact announced_of_blockOf hhs (hall _) b hb

/-- A device descriptor with one configuration. -/
def oneConfiguration : List Byte := [18, 1, 0, 2, 0, 0, 0, 64, 0xfe, 0xca, 1, 0, 0, 1, 0, 0, 0, 1]

theorem recovered_iff_keyboard :
    (oneConfiguration.length = deviceDescriptorSize ∧
      (∀ other, ∀ c ∈ (fullSpeed bootKeyboard).available other, c.descriptor.bLength = 9) ∧
      (∀ c ∈ (fullSpeed bootKeyboard).emitted, c.getFullDescriptorLength < 65536) ∧
      (fullSpeed bootKeyboard).demand ≤ USB_BUFSIZE) ∧
      ∀ newValue uninit, uninit.length = USB_BUFSIZE →
        (fullSpeed bootKeyboard).Recovered oneConfiguration newValue uninit := by
  have honly : (fullSpeed bootKeyboard).hsConfigurations = [bootKeyboard] := rfl
  have hheader : ∀ other, ∀ c ∈ (fullSpeed bootKeyboard).available other,
      c.descriptor.bLength = 9 := by
    intro other c hc
    rcases mem_of_available hc with hmem | ⟨q, hq, -⟩
    · obtain rfl : c = bootKeyboard := Option.some.inj (List.mem_singleton.1 hmem)
      rfl
    · cases hq
  have hlt : ∀ c ∈ (fullSpeed bootKeyboard).emitted, c.getFullDescriptorLength < 65536 := by
    decide +kernel
  refine ⟨⟨rfl, hheader, hlt, by decide +kernel⟩,
    (recovered_iff _ oneConfiguration rfl hheader hlt (by decide +kernel)).2 ⟨?_, fun _ c hc => ?_⟩⟩
  · intro q hq
    cases hq
  · rw [honly, List.mem_singleton] at hc
    rw [hc]
    exact bootKeyboard_aligned

/-- A high-speed device with one configuration that has two at full speed. -/
def twoAtFullSpeed : Device where
  bNumConfigurations := 1
  configurations := [some bootKeyboard]
  configurations_length := rfl
  deviceConfigurationIndex := 1
  qualifier := some
    { bNumConfigurations := 2, configurations := [some bootKeyboard, some bootKeyboard]
      configurations_length := rfl }
  highspeed := true

theorem twoAtFullSpeed_not_recovered :
    (oneConfiguration.length = deviceDescriptorSize ∧
      (∀ other, ∀ c ∈ twoAtFullSpeed.available other, c.descriptor.bLength = 9) ∧
      (∀ c ∈ twoAtFullSpeed.emitted, c.getFullDescriptorLength < 65536) ∧
      twoAtFullSpeed.demand ≤ USB_BUFSIZE) ∧
      ¬ ∀ newValue uninit, uninit.length = USB_BUFSIZE →
        twoAtFullSpeed.Recovered oneConfiguration newValue uninit := by
  have hheader : ∀ other, ∀ c ∈ twoAtFullSpeed.available other, c.descriptor.bLength = 9 := by
    intro other c hc
    have hc : c = bootKeyboard := by
      rcases mem_of_available hc with hmem | ⟨q, hq, hmem⟩
      · exact Option.some.inj (List.mem_singleton.1 hmem)
      · cases hq
        exact Option.some.inj (List.eq_of_mem_replicate (show some c ∈ List.replicate 2 _ from hmem))
    rw [hc]
    rfl
  have hlt : ∀ c ∈ twoAtFullSpeed.emitted, c.getFullDescriptorLength < 65536 := by decide +kernel
  have hfit : twoAtFullSpeed.demand ≤ USB_BUFSIZE := by decide +kernel
  refine ⟨⟨rfl, hheader, hlt, hfit⟩, fun h => ?_⟩
  have hcovered := covered_of_recovered rfl hheader hlt hfit List.length_replicate
    (h id (List.replicate USB_BUFSIZE 0) List.length_replicate)
  exact absurd (hcovered _ rfl 2 (by decide)) (Option.some_ne_none bootKeyboard)

end Device

end UsbProxy
