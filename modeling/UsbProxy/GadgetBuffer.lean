import UsbProxy.Library.Copies
import UsbProxy.GadgetDescriptor

/-!
# The buffer of `generate_descriptor`

`HostProxy_GadgetFS::generate_descriptor` fills a buffer of `USB_BUFSIZE` bytes by copies through
`ptr`, whose lengths are those of the device's descriptors.  Nothing compares them with the size of
the buffer: `copies_inside_iff` says for which devices the copies stay inside.  With that and the frame
of one block `generateDescriptor_iff` says for which full-speed devices nothing but intervals changes.
-/

namespace UsbProxy

open Copies Patches

def USB_BUFSIZE : ℕ := 7 * 1024

/-- `sizeof(struct usb_device_descriptor)`. -/
def deviceDescriptorSize : ℕ := 18

/-- What `generate_descriptor` makes: the blocks of its two loops and the device descriptor. -/
structure GadgetDescriptor where
  fsBlocks : List (List Byte)
  hsBlocks : List (List Byte)
  device : List Byte

/-- The buffer, as it is written to the gadget's file. -/
def GadgetDescriptor.bytes (g : GadgetDescriptor) : List Byte :=
  [0, 0, 0, 0] ++ g.fsBlocks.flatten ++ g.hsBlocks.flatten ++ g.device

namespace Configuration

/-- `int length=cfg->get_full_descriptor_length()`. -/
def length (c : Configuration) : ℤ := Int.bmod c.getFullDescriptorLength UInt32.size

/-- `get_interface(k)` is not null for any `k` below the `bNumInterfaces` of the block. -/
def interfacesActive (c : Configuration) : Bool :=
  (walkMoves (c.activeInterfaces (c.fsBlock.getD 4 0))).isSome

/-- The length as the number of bytes it copies if it is not negative. -/
def copied (c : Configuration) : ℕ := c.getFullDescriptorLength % UInt32.size

theorem length_bounds (c : Configuration) :
    -(UInt64.size : ℤ) ≤ 2 * c.length ∧ 2 * c.length < (UInt64.size : ℤ) := by
  unfold length
  have hle := Int.le_bmod (x := c.getFullDescriptorLength) (m := UInt32.size) (by decide)
  have hlt := Int.bmod_lt (x := c.getFullDescriptorLength) (m := UInt32.size) (by decide)
  simp only [UInt32.size, UInt64.size] at *
  omega

theorem length_cases (c : Configuration) :
    c.length = c.copied ∨ c.length < 0 ∧ USB_BUFSIZE < c.copied := by
  unfold length copied
  rw [Int.bmod_def]
  simp only [UInt32.size, USB_BUFSIZE]
  split_ifs with h <;> omega

end Configuration

namespace Device

/-- The second loop comes behind the configuration: a null interface is only followed for a device
that is not a high-speed one. -/
def passes (d : Device) (c : Configuration) : Bool := d.highspeed || c.interfacesActive

/-- The configurations whose blocks are copied.  A null interface ends the program. -/
def emitted (d : Device) : List Configuration :=
  d.configurationsFor d.highspeed ++ d.hsConfigurations.takeWhile d.passes

/-- The lengths `ptr` is moved by: the tag, the blocks, the device descriptor. -/
def lengths (d : Device) : List ℤ :=
  4 :: d.emitted.map Configuration.length ++
    if d.hsConfigurations.all d.passes then [(deviceDescriptorSize : ℤ)] else []

/-- What `generate_descriptor` writes through `ptr`. -/
def copies (d : Device) : List Copy := copiesFrom UInt64.size 0 d.lengths

def demand (d : Device) : ℕ :=
  4 + total Configuration.copied d.emitted +
    if d.hsConfigurations.all d.passes then deviceDescriptorSize else 0

/-! ## Lengths that fit -/

theorem lengths_bounds (d : Device) :
    ∀ n ∈ d.lengths, -(UInt64.size : ℤ) ≤ 2 * n ∧ 2 * n < (UInt64.size : ℤ) := by
  unfold lengths
  rw [List.cons_append, List.forall_mem_cons, List.forall_mem_append]
  refine ⟨by decide, ?_, ?_⟩
  · intro n hn
    obtain ⟨c, -, rfl⟩ := List.mem_map.1 hn
    exact c.length_bounds
  · split_ifs
    · simp [deviceDescriptorSize, UInt64.size]
    · simp

/-- Lengths that are not negative move the cursor by what they copy, and a negative one asks for
more than the buffer has. -/
theorem cursor_map_length (cs : List Configuration) {p : ℤ} (hp : 0 ≤ p) :
    (∀ n ∈ cs.map Configuration.length, 0 ≤ n) ∧
        cursor p (cs.map Configuration.length) = p + total Configuration.copied cs ∨
      (¬ ∀ n ∈ cs.map Configuration.length, 0 ≤ n) ∧ USB_BUFSIZE < total Configuration.copied cs := by
  induction cs generalizing p with
  | nil => exact .inl ⟨by simp, by simp [cursor, total]⟩
  | cons c cs ih =>
    rw [List.map_cons, List.forall_mem_cons, cursor, total]
    rcases c.length_cases with hc | ⟨hneg, hbig⟩
    · rcases ih (p := p + c.length) (by omega) with ⟨hall, heq⟩ | ⟨hnot, hbig⟩
      · exact .inl ⟨⟨by omega, hall⟩, by rw [heq]; omega⟩
      · exact .inr ⟨fun h => hnot h.2, by omega⟩
    · exact .inr ⟨fun h => by omega, by omega⟩

/-- **The size of the buffer.**  The copies of `generate_descriptor` stay inside of the buffer
exactly when the device does not ask for more bytes than it has. -/
theorem copies_inside_iff (d : Device) :
    (∀ c ∈ d.copies, c.Inside USB_BUFSIZE) ↔ d.demand ≤ USB_BUFSIZE := by
  unfold copies
  rw [inside_iff (Int.le_refl 0) (by decide) (by decide) d.lengths_bounds]
  unfold lengths demand
  rw [List.cons_append, List.forall_mem_cons, List.forall_mem_append, cursor, cursor_append]
  -- Whether the device descriptor is copied or not, it moves the cursor by its size.
  have hlast : ∀ p,
      cursor p (if d.hsConfigurations.all d.passes then [(deviceDescriptorSize : ℤ)] else []) =
        p + ((if d.hsConfigurations.all d.passes then deviceDescriptorSize else 0 : ℕ) : ℤ) := by
    intro p
    split_ifs
    · rfl
    · exact (Int.add_zero p).symm
  have hlast' : ∀ n ∈ if d.hsConfigurations.all d.passes then [(deviceDescriptorSize : ℤ)] else [],
      0 ≤ n := by
    split_ifs <;> simp
  rw [hlast]
  rcases cursor_map_length (p := 0 + 4) d.emitted (by omega) with ⟨hall, hcur⟩ | ⟨hnot, hbig⟩
  · rw [hcur]
    constructor
    · rintro ⟨-, hle⟩
      omega
    · intro hle
      exact ⟨⟨by omega, hall, hlast'⟩, by omega⟩
  · exact iff_of_false (fun h => hnot h.1.2.1) (by omega)

/-! ## `generate_descriptor` -/

/-- `generate_descriptor`, with the bytes of the device descriptor.  A null interface that is followed,
a store outside of a block and a copy that leaves the buffer are `none`. -/
def generateDescriptor (d : Device) (descriptor : List Byte) (newValue : Byte → Byte) :
    Option GadgetDescriptor :=
  if ∀ c ∈ d.copies, c.Inside USB_BUFSIZE then
    (hsBlocks d.highspeed newValue d.hsConfigurations).map fun blocks =>
      { fsBlocks := (d.configurationsFor d.highspeed).map Configuration.fsBlock, hsBlocks := blocks
        device := descriptor }
  else none

theorem generateDescriptor_eq_some {d : Device} {descriptor : List Byte} {newValue : Byte → Byte}
    {g : GadgetDescriptor} :
    d.generateDescriptor descriptor newValue = some g ↔ d.demand ≤ USB_BUFSIZE ∧
      ∃ blocks, hsBlocks d.highspeed newValue d.hsConfigurations = some blocks ∧
        g = ⟨(d.configurationsFor d.highspeed).map Configuration.fsBlock, blocks, descriptor⟩ := by
  unfold generateDescriptor
  rw [← copies_inside_iff]
  split_ifs with hin
  · rw [and_iff_right hin, Option.map_eq_some_iff]
    exact exists_congr fun blocks => and_congr_right fun _ => eq_comm
  · exact iff_of_false (by simp) fun h => hin h.1

/-- **The frame of the interval conversion.**  For a device that is not a high-speed one, every
high-speed block is its configuration's full descriptor up to header fields and intervals, whatever
the conversion, exactly when the blocks fit in the buffer and every configuration is aligned. -/
theorem generateDescriptor_iff (d : Device) (descriptor : List Byte) (hspeed : d.highspeed = false)
    (hheader : ∀ c ∈ d.hsConfigurations, 9 ≤ c.descriptor.bLength.toNat) :
    (∀ newValue, ∃ g, d.generateDescriptor descriptor newValue = some g ∧
        List.Forall₂ Configuration.FrameKept d.hsConfigurations g.hsBlocks) ↔
      d.demand ≤ USB_BUFSIZE ∧ ∀ c ∈ d.hsConfigurations, c.Aligned := by
  have hmade : ∀ newValue, (∃ g, d.generateDescriptor descriptor newValue = some g ∧
      List.Forall₂ Configuration.FrameKept d.hsConfigurations g.hsBlocks) ↔
      d.demand ≤ USB_BUFSIZE ∧
        ∀ c ∈ d.hsConfigurations, ∃ block, c.hsBlock false newValue = some block ∧ c.FrameKept block := by
    intro newValue
    rw [← hsBlocks_forall₂_iff, ← hspeed]
    constructor
    · rintro ⟨g, hg, hkept⟩
      obtain ⟨hfit, blocks, hblocks, rfl⟩ := generateDescriptor_eq_some.1 hg
      exact ⟨hfit, blocks, hblocks, hkept⟩
    · rintro ⟨hfit, blocks, hblocks, hkept⟩
      exact ⟨_, generateDescriptor_eq_some.2 ⟨hfit, blocks, hblocks, rfl⟩, hkept⟩
  calc
    _ ↔ ∀ newValue, d.demand ≤ USB_BUFSIZE ∧ ∀ c ∈ d.hsConfigurations,
        ∃ block, c.hsBlock false newValue = some block ∧ c.FrameKept block := forall_congr' hmade
    _ ↔ d.demand ≤ USB_BUFSIZE ∧ ∀ c ∈ d.hsConfigurations, ∀ newValue,
        ∃ block, c.hsBlock false newValue = some block ∧ c.FrameKept block :=
      ⟨fun h => ⟨(h id).1, fun c hc newValue => (h newValue).2 c hc⟩,
        fun h newValue => ⟨h.1, fun c hc => h.2 c hc newValue⟩⟩
    _ ↔ _ := and_congr_right fun _ =>
      forall_congr' fun c => imp_congr_right fun hc => Configuration.hsBlock_iff (hheader c hc)

end Device

theorem Device.generateDescriptor_iff_keyboard :
    (∀ c ∈ (fullSpeed bootKeyboard).hsConfigurations, 9 ≤ c.descriptor.bLength.toNat) ∧
      (∀ newValue, ∃ g, (fullSpeed bootKeyboard).generateDescriptor [] newValue = some g ∧
        List.Forall₂ Configuration.FrameKept (fullSpeed bootKeyboard).hsConfigurations
          g.hsBlocks) := by
  have honly : (fullSpeed bootKeyboard).hsConfigurations = [bootKeyboard] := rfl
  have hheader : ∀ c ∈ (fullSpeed bootKeyboard).hsConfigurations,
      9 ≤ c.descriptor.bLength.toNat := by
    intro c hc
    rw [honly, List.mem_singleton] at hc
    rw [hc]
    decide
  refine ⟨hheader, (generateDescriptor_iff _ [] rfl hheader).2 ⟨by decide +kernel, fun c hc => ?_⟩⟩
  rw [honly, List.mem_singleton] at hc
  rw [hc]
  exact bootKeyboard_aligned

/-- The walk over the keyboard begins at the second alternate setting, and the byte it rewrites is the
last one of the keyboard's interface descriptor. -/
theorem Device.generateDescriptor_not_kept :
    ¬ ∀ newValue, ∃ g, (fullSpeed twoAlternates).generateDescriptor [] newValue = some g ∧
      List.Forall₂ Configuration.FrameKept (fullSpeed twoAlternates).hsConfigurations g.hsBlocks := by
  intro h
  obtain ⟨g, hg, hkept⟩ := h fun _ => 4
  obtain ⟨-, blocks, hblocks, rfl⟩ := generateDescriptor_eq_some.1 hg
  obtain ⟨block, hblock, hframe⟩ := hsBlocks_forall₂_iff.1 ⟨blocks, hblocks, hkept⟩ twoAlternates
    (List.mem_singleton_self _)
  have hat : block[49]? = some 0 := hframe.2 49 (by decide)
  have hwritten : (twoAlternates.hsBlock false fun _ => 4).bind (fun block => block[49]?) = some 4 := by
    decide
  rw [show twoAlternates.hsBlock false (fun _ => 4) = some block from hblock, Option.bind_some,
    hat] at hwritten
  exact absurd hwritten (by decide)

/-- A class-specific descriptor of the largest size. -/
def largeDescriptor : GenericDescriptor where
  bytes := 255 :: 0x24 :: List.replicate 253 0
  length_eq := by
    rw [List.length_cons, List.length_cons, List.length_replicate]
    rfl

/-- A camera's interface with fifteen of them. -/
def cameraInterface : Interface where
  descriptor := ifcDescriptor 0 0 0 0x0e
  endpoints := []
  hidDescriptor := none
  genericDescriptors := { entries := List.replicate 15 largeDescriptor, count := 15, length_eq := rfl }
  endpoints_length := rfl

/-- A high-speed device without a qualifier, whose configuration has 3843 bytes. -/
def camera : Device where
  bNumConfigurations := 1
  configurations :=
    [some (configurationOf 3843 [activeGroup 0 [cameraInterface] (by decide)] (by decide))]
  configurations_length := rfl
  deviceConfigurationIndex := 1
  qualifier := none
  highspeed := true

theorem Device.copies_camera : ¬ ∀ c ∈ camera.copies, c.Inside USB_BUFSIZE := by
  decide +kernel

end UsbProxy
