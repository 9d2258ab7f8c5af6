import UsbProxy.EndpointSlots
import UsbProxy.GadgetDescriptor

/-!
# `HostProxy_GadgetFS::setConfig`

Each endpoint of the full-speed configuration gets a file of its own, and what is written to it is a
tag, the endpoint's full-speed descriptor and its high-speed descriptor.  The high-speed one is looked
up in the other configuration under the alternate setting twice, once in place of the interface
number; `setConfig_paired_iff` says when that makes no difference.
-/

namespace UsbProxy

/-! ## The writes -/

/-- What is written to the file of an endpoint, and the size of the first read from it. -/
structure EndpointWrite where
  slot : EndpointSlot
  epAddress : Byte
  record : List Byte
  aioNbytes : Option UInt16

namespace HostProxyGadgetFS

/-- The high-speed endpoint the body of the loops comes to, fallbacks included. -/
def hsEndpoint (hsCfg : Option Configuration) (s : EndpointSlot) : Endpoint :=
  let hsAifc := (hsCfg.bind fun c => c.getInterfaceAlternate s.aifcIdx s.aifcIdx).getD s.fsAifc
  (hsAifc.getEndpointByIdx s.epIdx).getD s.fsEp

/-- The first `bufSize` bytes of the buffer; `bufSize` is a byte, and what is copied behind the buffer
when the sum wraps is not followed. -/
def epRecord (fsEp hsEp : Endpoint) : List Byte :=
  let bufSize : Byte := 4 + fsEp.descriptor.bLength + hsEp.descriptor.bLength
  ([1, 0, 0, 0] ++ fsEp.getFullDescriptor ++ hsEp.getFullDescriptor).take bufSize.toNat

/-- The body of the loops. -/
def writeOf (hsCfg : Option Configuration) (hs : Bool) (s : EndpointSlot) : EndpointWrite :=
  let hsEp := hsEndpoint hsCfg s
  { slot := s, epAddress := s.fsEp.descriptor.bEndpointAddress, record := epRecord s.fsEp hsEp
    aioNbytes :=
      if s.fsEp.descriptor.bEndpointAddress &&& 0x80 ≠ 0 then none
      else some (if hs then hsEp.descriptor.wMaxPacketSize else s.fsEp.descriptor.wMaxPacketSize) }

/-- The loops over the slots; `opens n` tells whether the `n`-th `open_endpoint` succeeds. -/
def writeAll (hsCfg : Option Configuration) (hs : Bool) (opens : ℕ → Bool) :
    ℕ → List (Option EndpointSlot) → List EndpointWrite × Ending
  | _, [] => ([], .returns)
  | _, none :: _ => ([], .crashes)
  | n, some s :: slots =>
    if opens n then
      let r := writeAll hsCfg hs opens (n + 1) slots
      (writeOf hsCfg hs s :: r.1, r.2)
    else ([], .returns)

/-- `setConfig` for a full-speed configuration that is there. -/
def setConfig (fsCfg : Configuration) (hsCfg : Option Configuration) (hs : Bool) (opens : ℕ → Bool) :
    List EndpointWrite × Ending :=
  writeAll hsCfg hs opens 0 fsCfg.endpointSlots

end HostProxyGadgetFS

/-! ## Same shape, right pairs -/

/-- The same interface numbers, alternate settings and endpoint slots. -/
structure SameShape (fs hs : Configuration) : Prop where
  interfaces : fs.descriptor.bNumInterfaces = hs.descriptor.bNumInterfaces
  alternates : ∀ number alternate, (fs.getInterfaceAlternate number alternate).isSome =
    (hs.getInterfaceAlternate number alternate).isSome
  endpoints : ∀ number alternate i j, fs.getInterfaceAlternate number alternate = some i →
    hs.getInterfaceAlternate number alternate = some j →
      i.endpoints.map Option.isSome = j.endpoints.map Option.isSome

/-- The record of a write is the tag with the two descriptors of the same interface number, alternate
setting and endpoint index, in the file of that endpoint. -/
def Paired (fs hs : Configuration) (w : EndpointWrite) : Prop :=
  ∃ fsEp hsEp, fs.endpointAt w.slot.ifcIdx w.slot.aifcIdx w.slot.epIdx = some fsEp ∧
    hs.endpointAt w.slot.ifcIdx w.slot.aifcIdx w.slot.epIdx = some hsEp ∧
    w.epAddress = fsEp.descriptor.bEndpointAddress ∧
    w.record = [1, 0, 0, 0] ++ fsEp.getFullDescriptor ++ hsEp.getFullDescriptor

/-- The lookup with the alternate setting in place of the interface number finds a descriptor with the
same bytes as the right lookup, and the record fits its size. -/
def Unmixed (hs : Configuration) (s : EndpointSlot) : Prop :=
  ∀ hsEp, hs.endpointAt s.ifcIdx s.aifcIdx s.epIdx = some hsEp →
    (HostProxyGadgetFS.hsEndpoint (some hs) s).getFullDescriptor = hsEp.getFullDescriptor ∧
      4 + s.fsEp.descriptor.bLength.toNat + hsEp.descriptor.bLength.toNat < 256

namespace HostProxyGadgetFS

variable {hsCfg : Option Configuration} {hs : Bool} {opens : ℕ → Bool} {n : ℕ}
  {slots : List (Option EndpointSlot)} {w : EndpointWrite}

theorem mem_writeAll (h : w ∈ (writeAll hsCfg hs opens n slots).1) :
    ∃ s ∈ (slots.takeWhile Option.isSome).reduceOption, w = writeOf hsCfg hs s := by
  induction slots generalizing n with
  | nil => cases h
  | cons slot slots ih =>
    cases slot with
    | none => cases h
    | some s =>
      rw [List.takeWhile_cons_of_pos rfl, List.reduceOption_cons_of_some]
      unfold writeAll at h
      split_ifs at h with hopen
      · rcases List.mem_cons.1 h with rfl | h
        · exact ⟨s, List.mem_cons_self .., rfl⟩
        · obtain ⟨t, ht, rfl⟩ := ih h
          exact ⟨t, List.mem_cons_of_mem _ ht, rfl⟩
      · cases h

theorem writeAll_opened (n : ℕ) (slots : List (Option EndpointSlot)) :
    (writeAll hsCfg hs (fun _ => true) n slots).1 =
      (slots.takeWhile Option.isSome).reduceOption.map (writeOf hsCfg hs) := by
  induction slots generalizing n with
  | nil => rfl
  | cons slot slots ih =>
    cases slot with
    | none => rfl
    | some s =>
      rw [List.takeWhile_cons_of_pos rfl, List.reduceOption_cons_of_some, List.map_cons, ← ih (n + 1)]
      rfl

/-- A record is the tag with two descriptors exactly when those are the bytes it was made of and its
size did not wrap. -/
theorem epRecord_eq_iff {fsEp hsEp ep : Endpoint} :
    epRecord fsEp hsEp = [1, 0, 0, 0] ++ fsEp.getFullDescriptor ++ ep.getFullDescriptor ↔
      hsEp.getFullDescriptor = ep.getFullDescriptor ∧
        4 + fsEp.descriptor.bLength.toNat + ep.descriptor.bLength.toNat < 256 := by
  have hlen : ∀ e : Endpoint, ([1, 0, 0, 0] ++ fsEp.getFullDescriptor ++ e.getFullDescriptor).length =
      4 + fsEp.descriptor.bLength.toNat + e.descriptor.bLength.toNat := by
    intro e
    rw [List.length_append, List.length_append, Endpoint.length_getFullDescriptor,
      Endpoint.length_getFullDescriptor]
    rfl
  have hsize : (4 + fsEp.descriptor.bLength + hsEp.descriptor.bLength).toNat =
      (4 + fsEp.descriptor.bLength.toNat + hsEp.descriptor.bLength.toNat) % 256 := by
    rw [UInt8.toNat_add, UInt8.toNat_add]
    show ((4 + _) % 256 + _) % 256 = _
    omega
  have h2 := hsEp.descriptor.bLength.toNat_lt
  unfold epRecord
  simp only [hsize]
  constructor
  · intro h
    have hl := congrArg List.length h
    rw [List.length_take, hlen, hlen] at hl
    have hlt : 4 + fsEp.descriptor.bLength.toNat + hsEp.descriptor.bLength.toNat < 256 := by omega
    rw [Nat.mod_eq_of_lt hlt, ← hlen, List.take_length] at h
    have hbytes := List.append_cancel_left h
    have hb := congrArg List.length hbytes
    rw [Endpoint.length_getFullDescriptor, Endpoint.length_getFullDescriptor] at hb
    refine ⟨hbytes, ?_⟩
    unfold Endpoint.getFullDescriptorLength at hb
    omega
  · rintro ⟨hbytes, hlt⟩
    have hb := congrArg List.length hbytes
    rw [Endpoint.length_getFullDescriptor, Endpoint.length_getFullDescriptor] at hb
    unfold Endpoint.getFullDescriptorLength at hb
    rw [Nat.mod_eq_of_lt (by omega), ← hlen, List.take_length, hbytes]

end HostProxyGadgetFS

/-! ## The pairs -/

section Pairs

variable {fs hs : Configuration}

theorem SameShape.endpointAt (h : SameShape fs hs) {number alternate index : Byte} {ep : Endpoint}
    (hep : fs.endpointAt number alternate index = some ep) :
    ∃ hsEp, hs.endpointAt number alternate index = some hsEp := by
  obtain ⟨i, hi, hep⟩ := Option.bind_eq_some_iff.1 hep
  obtain ⟨j, hj⟩ : ∃ j, hs.getInterfaceAlternate number alternate = some j :=
    Option.isSome_iff_exists.1 (by rw [← h.alternates, hi]; rfl)
  have hslots := h.endpoints number alternate i j hi hj
  have hlt : index.toNat < i.endpoints.length := by
    rw [i.endpoints_length]
    exact UInt8.lt_iff_toNat_lt.1 (lt_of_getEndpointByIdx hep)
  have hlt' : index.toNat < j.endpoints.length := by
    have hlen := congrArg List.length hslots
    rw [List.length_map, List.length_map] at hlen
    omega
  have hsome : (j.endpoints[index.toNat]).isSome = true := by
    have hat := congrArg (fun l => l[index.toNat]?) hslots
    simp only [List.getElem?_map, List.getElem?_eq_getElem hlt, List.getElem?_eq_getElem hlt',
      Option.map_some, Option.some.injEq] at hat
    rw [← hat]
    unfold Interface.getEndpointByIdx at hep
    split_ifs at hep
    rw [List.getElem?_eq_getElem hlt, Option.join_some] at hep
    rw [hep]
    rfl
  obtain ⟨hsEp, hat⟩ := Option.isSome_iff_exists.1 hsome
  refine ⟨hsEp, ?_⟩
  have hle : ¬ j.descriptor.bNumEndpoints ≤ index := by
    rw [UInt8.le_iff_toNat_le, ← j.endpoints_length]
    omega
  unfold Configuration.endpointAt Interface.getEndpointByIdx
  rw [hj, Option.bind_some, if_neg hle, List.getElem?_eq_getElem hlt', hat]
  rfl

/-- The write of a slot is right exactly when its lookups are not mixed up. -/
theorem paired_writeOf_iff (h : SameShape fs hs) (speed : Bool) {s : EndpointSlot}
    (hs' : some s ∈ fs.endpointSlots) :
    Paired fs hs (HostProxyGadgetFS.writeOf (some hs) speed s) ↔ Unmixed hs s := by
  have hfs := endpointAt_of_mem hs'
  obtain ⟨hsEp, hhs⟩ := h.endpointAt hfs
  constructor
  · rintro ⟨fsEp, ep, hfs', hep, -, hrecord⟩ ep' hep'
    obtain rfl := Option.some.inj (hfs.symm.trans hfs')
    obtain rfl := Option.some.inj (hep.symm.trans hep')
    exact HostProxyGadgetFS.epRecord_eq_iff.1 hrecord
  · intro hun
    exact ⟨s.fsEp, hsEp, hfs, hhs, rfl, HostProxyGadgetFS.epRecord_eq_iff.2 (hun hsEp hhs)⟩

/-- **Endpoint records.**  For a full-speed and a high-speed configuration of the same shape, every
record written holds the two descriptors of one place, exactly when the lookup under the alternate
setting twice finds the same bytes for every endpoint that is reached. -/
theorem setConfig_paired_iff (fs hs : Configuration) (h : SameShape fs hs) (speed : Bool) :
    (∀ opens, ∀ w ∈ (HostProxyGadgetFS.setConfig fs (some hs) speed opens).1, Paired fs hs w) ↔
      ∀ s ∈ fs.reached, Unmixed hs s := by
  constructor
  · intro hall s hs'
    refine (paired_writeOf_iff h speed (mem_reached hs')).1 (hall (fun _ => true) _ ?_)
    unfold HostProxyGadgetFS.setConfig
    rw [HostProxyGadgetFS.writeAll_opened]
    exact List.mem_map_of_mem hs'
  · intro hall opens w hw
    obtain ⟨s, hs', rfl⟩ := HostProxyGadgetFS.mem_writeAll hw
    exact (paired_writeOf_iff h speed (mem_reached hs')).2 (hall s hs')

/-- No endpoint of a complete configuration is left out when every file can be opened. -/
theorem exists_write (hsCfg : Option Configuration) (speed : Bool) (hfull : none ∉ fs.endpointSlots)
    {number alternate index : Byte} {ep : Endpoint}
    (hep : fs.endpointAt number alternate index = some ep) :
    ∃ w ∈ (HostProxyGadgetFS.setConfig fs hsCfg speed fun _ => true).1,
      w.slot.ifcIdx = number ∧ w.slot.aifcIdx = alternate ∧ w.slot.epIdx = index := by
  obtain ⟨i, hi, hidx⟩ := Option.bind_eq_some_iff.1 hep
  have hmem : some (⟨number, alternate, index, i, ep⟩ : EndpointSlot) ∈ fs.endpointSlots :=
    some_mem_endpointSlots.2 ⟨hi, hidx⟩
  refine ⟨HostProxyGadgetFS.writeOf hsCfg speed ⟨number, alternate, index, i, ep⟩, ?_, rfl, rfl, rfl⟩
  unfold HostProxyGadgetFS.setConfig
  rw [HostProxyGadgetFS.writeAll_opened]
  exact List.mem_map_of_mem ((mem_reached_iff hfull).2 hmem)

end Pairs

/-! ## Two interfaces -/

/-- Where the alternate setting has the number of its interface, the lookup is the right one. -/
theorem unmixed_of_eq {hs : Configuration} {s : EndpointSlot} (h : s.ifcIdx = s.aifcIdx)
    (hlt : ∀ hsEp, hs.endpointAt s.ifcIdx s.aifcIdx s.epIdx = some hsEp →
      4 + s.fsEp.descriptor.bLength.toNat + hsEp.descriptor.bLength.toNat < 256) : Unmixed hs s := by
  intro hsEp hep
  refine ⟨?_, hlt hsEp hep⟩
  obtain ⟨i, hi, hidx⟩ := Option.bind_eq_some_iff.1 hep
  rw [h] at hi
  unfold HostProxyGadgetFS.hsEndpoint
  simp only [Option.bind_some, hi, Option.getD_some, hidx]

/-- The interface of a printer: two bulk endpoints whose packets have `size` bytes. -/
def printerInterface (size : UInt16) : Interface where
  descriptor := ifcDescriptor 0 0 2 7
  endpoints := [some ⟨⟨7, USB_DT_ENDPOINT, 0x01, 2, size, 0, 0, 0⟩⟩,
    some ⟨⟨7, USB_DT_ENDPOINT, 0x82, 2, size, 0, 0, 0⟩⟩]
  hidDescriptor := none
  genericDescriptors := .none
  endpoints_length := rfl

def printer (size : UInt16) : Configuration :=
  configurationOf 32 [activeGroup 0 [printerInterface size] (show 1 ≤ 256 by decide)]
    (show 1 < 256 by decide)

theorem getInterfaceAlternate_printer (size : UInt16) (number alternate : Byte) :
    (printer size).getInterfaceAlternate number alternate =
      if number = 0 ∧ alternate = 0 then some (printerInterface size) else none := by
  have hzero : ∀ b : Byte, b ≠ 0 → 1 ≤ b := fun b hb =>
    UInt8.le_iff_toNat_le.2 (Nat.pos_of_ne_zero fun h => hb (UInt8.toNat_inj.1 h))
  by_cases hnumber : number = 0
  · subst hnumber
    by_cases halternate : alternate = 0
    · subst halternate
      rfl
    · rw [if_neg (c := (0 : Byte) = 0 ∧ alternate = 0) fun h => halternate h.2]
      exact if_pos (hzero alternate halternate)
  · have hgroup : (printer size).group number = none := if_pos (hzero number hnumber)
    rw [if_neg (c := number = 0 ∧ alternate = 0) fun h => hnumber h.1]
    unfold Configuration.getInterfaceAlternate
    rw [hgroup]
    rfl

theorem sameShape_printer (size size' : UInt16) : SameShape (printer size) (printer size') where
  interfaces := rfl
  alternates number alternate := by
    rw [getInterfaceAlternate_printer, getInterfaceAlternate_printer]
    split_ifs <;> rfl
  endpoints number alternate i j hi hj := by
    rw [getInterfaceAlternate_printer] at hi hj
    split_ifs at hi hj
    cases hi
    cases hj
    rfl

theorem setConfig_paired_iff_printer :
    SameShape (printer 64) (printer 512) ∧ (printer 64).reached.length = 2 ∧
      ∀ opens, ∀ w ∈ (HostProxyGadgetFS.setConfig (printer 64) (some (printer 512)) true opens).1,
        Paired (printer 64) (printer 512) w := by
  refine ⟨sameShape_printer 64 512, rfl,
    (setConfig_paired_iff _ _ (sameShape_printer 64 512) true).2 fun s hs => ?_⟩
  have hreached : (printer 64).reached =
      [⟨0, 0, 0, printerInterface 64, ⟨⟨7, USB_DT_ENDPOINT, 0x01, 2, 64, 0, 0, 0⟩⟩⟩,
        ⟨0, 0, 1, printerInterface 64, ⟨⟨7, USB_DT_ENDPOINT, 0x82, 2, 64, 0, 0, 0⟩⟩⟩] := rfl
  rw [hreached] at hs
  rcases List.mem_pair.1 hs with rfl | rfl <;> refine unmixed_of_eq rfl fun hsEp hep => ?_ <;>
    cases hep <;> decide

/-- A vendor interface in front of a keyboard. -/
def twoInterfaces : Configuration :=
  configurationOf 50
    [activeGroup 0 [oneEndpoint 0 0 0xff 0x82 none] (by decide),
      activeGroup 1 [oneEndpoint 1 0 3 0x83 (some hidRecord)] (by decide)] (by decide)

/-- The keyboard's file gets the high-speed descriptor of the vendor interface's endpoint. -/
theorem setConfig_not_paired :
    ¬ ∀ opens, ∀ w ∈ (HostProxyGadgetFS.setConfig twoInterfaces (some twoInterfaces) false opens).1,
      Paired twoInterfaces twoInterfaces w := by
  intro h
  have hwrites : (HostProxyGadgetFS.setConfig twoInterfaces (some twoInterfaces) false
      fun _ => true).1 =
      [HostProxyGadgetFS.writeOf (some twoInterfaces) false
        ⟨0, 0, 0, oneEndpoint 0 0 0xff 0x82 none, interruptEndpoint 0x82⟩,
      HostProxyGadgetFS.writeOf (some twoInterfaces) false
        ⟨1, 0, 0, oneEndpoint 1 0 3 0x83 (some hidRecord), interruptEndpoint 0x83⟩] := rfl
  obtain ⟨fsEp, hsEp, hfs, hhs, -, hrecord⟩ := h (fun _ => true)
    (HostProxyGadgetFS.writeOf (some twoInterfaces) false
      ⟨1, 0, 0, oneEndpoint 1 0 3 0x83 (some hidRecord), interruptEndpoint 0x83⟩)
    (by rw [hwrites]; simp)
  have hat : twoInterfaces.endpointAt 1 0 0 = some (interruptEndpoint 0x83) := rfl
  obtain rfl := Option.some.inj (hat.symm.trans hfs)
  obtain rfl := Option.some.inj (hat.symm.trans hhs)
  exact absurd hrecord (by decide)

end UsbProxy
