import UsbProxy.Filters

/-!
# The filter loop of a data writer

`relay_write` calls every attached plugin through a `PacketFilter*`, so the body that runs is the one
in the vtable slot of `filter_packet(Packet*, zmq::socket_t*)`.  `Plugin.slot` is that body and
`Plugin.defined` the one the plugin's class header announces; `filterLoop` runs the loop under either
reading.  `relayWrite_slot_iff`: over a sequence of packets the two readings enter the same bodies
exactly when no plugin that only hides the virtual accepts a packet, and then they agree on every
packet handed over and on every plugin state.
-/

namespace UsbProxy

/-- Which body a call enters: the empty one of `PacketFilter` or the class's own. -/
inductive Body
  | base
  | own
  deriving DecidableEq, Repr

namespace Plugin

/-- The body in the vtable slot the call goes through. -/
def slot (f : Plugin) : Body := if f.cls.declares = some .packetSocket then .own else .base

/-- The body the class defines under the name `filter_packet`. -/
def defined (f : Plugin) : Body := if f.cls.declares = none then .base else .own

/-- The class declares `filter_packet(Packet*)`, which does not override the virtual. -/
def hides (f : Plugin) : Bool := f.cls.declares = some .packet

def enter (charSigned : Bool) (b : Body) (f : Plugin) (p : Packet) : Plugin × Packet :=
  match b with
  | .base => (f, p)
  | .own => f.filterPacket charSigned p

end Plugin

/-- A packet after the filter loop, with the plugin objects and the bodies entered, in order. -/
structure Filtered where
  plugins : List Plugin
  packet : Packet
  entered : List Body

section Loop

variable (charSigned : Bool) (resolve : Plugin → Body)

/-- `for (j=0; j<filters.size(); j++)` of `relay_write`. -/
def filterLoop : List Plugin → Packet → Filtered
  | [], p => { plugins := [], packet := p, entered := [] }
  | f :: fs, p =>
    if f.base.testPacket p then
      let (f', p') := f.enter charSigned (resolve f) p
      let rest := filterLoop fs p'
      { rest with plugins := f' :: rest.plugins, entered := resolve f :: rest.entered }
    else
      let rest := filterLoop fs p
      { rest with plugins := f :: rest.plugins }

/-- A dequeued packet up to the test of `transmit`. -/
def filterStage (fs : List Plugin) (p : Packet) : Filtered :=
  if p.filter then filterLoop charSigned resolve fs p else { plugins := fs, packet := p, entered := [] }

/-- What one packet comes to: the argument of `send_data`, or nothing when it is withheld. -/
structure Handed where
  sent : Option Packet
  entered : List Body
  deriving DecidableEq, Repr

def Filtered.handed (r : Filtered) : Handed :=
  { sent := if r.packet.transmit then some r.packet else none, entered := r.entered }

/-- The packets a writer dequeues one after another. -/
def relayWrite : List Plugin → List Packet → List Handed × List Plugin
  | fs, [] => ([], fs)
  | fs, p :: ps =>
    let r := filterStage charSigned resolve fs p
    let (hs, fs') := relayWrite r.plugins ps
    (r.handed :: hs, fs')

end Loop

/-! ## What the bodies leave alone -/

variable (charSigned : Bool)

theorem filterPacket_base (f : Plugin) (p : Packet) : (f.filterPacket charSigned p).1.base = f.base := by
  unfold Plugin.filterPacket
  split <;> rfl

theorem filterPacket_declares (f : Plugin) (p : Packet) :
    (f.filterPacket charSigned p).1.cls.declares = f.cls.declares := by
  unfold Plugin.filterPacket
  split <;> simp_all [FilterClass.declares]

/-- The plugins that do override the virtual only look at the packet. -/
theorem filterPacket_observes {f : Plugin} (h : f.slot = .own) (p : Packet) :
    (f.filterPacket charSigned p).2 = p := by
  unfold Plugin.slot at h
  unfold Plugin.filterPacket
  split <;> simp_all [FilterClass.declares]

/-- Through the vtable no plugin changes a packet. -/
theorem enter_slot_packet (f : Plugin) (p : Packet) : (f.enter charSigned f.slot p).2 = p := by
  unfold Plugin.enter
  split
  · rfl
  · next h => exact filterPacket_observes charSigned h p

theorem enter_base (b : Body) (f : Plugin) (p : Packet) : (f.enter charSigned b p).1.base = f.base := by
  cases b with
  | base => rfl
  | own => exact filterPacket_base charSigned f p

theorem enter_hides (b : Body) (f : Plugin) (p : Packet) :
    (f.enter charSigned b p).1.hides = f.hides := by
  cases b with
  | base => rfl
  | own => simp only [Plugin.enter, Plugin.hides, filterPacket_declares]

theorem slot_eq_defined {f : Plugin} (h : f.hides = false) : f.slot = f.defined := by
  unfold Plugin.slot Plugin.defined
  unfold Plugin.hides at h
  rcases hd : f.cls.declares with _ | d
  · simp
  · cases d <;> simp_all

theorem slot_ne_defined {f : Plugin} (h : f.hides = true) : f.slot ≠ f.defined := by
  unfold Plugin.slot Plugin.defined
  unfold Plugin.hides at h
  simp_all

/-! ## The two readings -/

/-- No attached plugin that only hides the virtual accepts the packet. -/
def Unhidden (fs : List Plugin) (p : Packet) : Prop :=
  ∀ f ∈ fs, f.hides = true → f.base.testPacket p = false

theorem filterLoop_slot_packet (fs : List Plugin) (p : Packet) :
    (filterLoop charSigned Plugin.slot fs p).packet = p := by
  induction fs generalizing p with
  | nil => rfl
  | cons f fs ih =>
    unfold filterLoop
    split
    · exact (ih _).trans (enter_slot_packet charSigned f p)
    · exact ih p

theorem filterStage_slot_packet (fs : List Plugin) (p : Packet) :
    (filterStage charSigned Plugin.slot fs p).packet = p := by
  unfold filterStage
  split
  · exact filterLoop_slot_packet charSigned fs p
  · rfl

/-- Through the vtable every packet is handed over as it was dequeued, and only the injector's own
`transmit` withholds one. -/
theorem relayWrite_slot_sent (fs : List Plugin) (ps : List Packet) :
    (relayWrite charSigned Plugin.slot fs ps).1.map Handed.sent =
      ps.map fun p => if p.transmit then some p else none := by
  induction ps generalizing fs with
  | nil => rfl
  | cons p ps ih =>
    unfold relayWrite
    simp only [List.map_cons, ih, Filtered.handed, filterStage_slot_packet]

theorem filterLoop_eq_of_unhidden {fs : List Plugin} {p : Packet} (h : Unhidden fs p) :
    filterLoop charSigned Plugin.slot fs p = filterLoop charSigned Plugin.defined fs p := by
  induction fs with
  | nil => rfl
  | cons f fs ih =>
    have hfs : Unhidden fs p := fun g hg => h g (List.mem_cons_of_mem _ hg)
    unfold filterLoop
    by_cases ht : f.base.testPacket p = true
    · have hh : f.hides = false := by
        by_contra hc
        have := h f (List.mem_cons_self ..) (by simpa using hc)
        simp [ht] at this
      have hp := enter_slot_packet charSigned f p
      rw [if_pos ht, if_pos ht, ← slot_eq_defined hh]
      simp only [hp, ih hfs]
    · rw [if_neg ht, if_neg ht]
      simp only [ih hfs]

theorem unhidden_of_entered {fs : List Plugin} {p : Packet}
    (h : (filterLoop charSigned Plugin.slot fs p).entered =
      (filterLoop charSigned Plugin.defined fs p).entered) : Unhidden fs p := by
  induction fs with
  | nil => intro f hf; simp at hf
  | cons f fs ih =>
    unfold filterLoop at h
    by_cases ht : f.base.testPacket p = true
    · rw [if_pos ht, if_pos ht] at h
      simp only [List.cons.injEq] at h
      obtain ⟨hb, hrest⟩ := h
      have hh : f.hides = false := by
        by_contra hc
        exact slot_ne_defined (by simpa using hc) hb
      rw [← hb, enter_slot_packet] at hrest
      intro g hg hgh
      rcases List.mem_cons.1 hg with rfl | hg
      · simp [hh] at hgh
      · exact ih hrest g hg hgh
    · rw [if_neg ht, if_neg ht] at h
      intro g hg hgh
      rcases List.mem_cons.1 hg with rfl | hg
      · simpa using ht
      · exact ih h g hg hgh

/-- The headers and declarations of the plugins, all a later packet's tests depend on. -/
def heads (fs : List Plugin) : List (PacketFilter × Bool) := fs.map fun f => (f.base, f.hides)

theorem unhidden_iff_heads {fs : List Plugin} {p : Packet} :
    Unhidden fs p ↔ ∀ h ∈ heads fs, h.2 = true → h.1.testPacket p = false := by
  simp [Unhidden, heads]

theorem heads_filterLoop (resolve : Plugin → Body) (fs : List Plugin) (p : Packet) :
    heads (filterLoop charSigned resolve fs p).plugins = heads fs := by
  induction fs generalizing p with
  | nil => rfl
  | cons f fs ih =>
    unfold filterLoop
    split
    · simp only [heads, List.map_cons, enter_base, enter_hides] at ih ⊢
      rw [ih]
    · simp only [heads, List.map_cons] at ih ⊢
      rw [ih]

theorem heads_filterStage (resolve : Plugin → Body) (fs : List Plugin) (p : Packet) :
    heads (filterStage charSigned resolve fs p).plugins = heads fs := by
  unfold filterStage
  split
  · exact heads_filterLoop charSigned resolve fs p
  · rfl

theorem filterStage_eq_of_unhidden {fs : List Plugin} {p : Packet} (h : Unhidden fs p) :
    filterStage charSigned Plugin.slot fs p = filterStage charSigned Plugin.defined fs p := by
  unfold filterStage
  rw [filterLoop_eq_of_unhidden charSigned h]

theorem relayWrite_eq_of_unhidden {fs : List Plugin} {ps : List Packet}
    (h : ∀ p ∈ ps, Unhidden fs p) :
    relayWrite charSigned Plugin.slot fs ps = relayWrite charSigned Plugin.defined fs ps := by
  induction ps generalizing fs with
  | nil => rfl
  | cons p ps ih =>
    have hp := filterStage_eq_of_unhidden charSigned (h p (List.mem_cons_self ..))
    have hps : ∀ q ∈ ps, Unhidden (filterStage charSigned Plugin.slot fs p).plugins q := by
      intro q hq
      rw [unhidden_iff_heads, heads_filterStage, ← unhidden_iff_heads]
      exact h q (List.mem_cons_of_mem _ hq)
    unfold relayWrite
    simp only [← hp, ih hps]

theorem unhidden_of_relayWrite {fs : List Plugin} {ps : List Packet}
    (hps : ∀ p ∈ ps, p.filter = true)
    (h : (relayWrite charSigned Plugin.slot fs ps).1.map Handed.entered =
      (relayWrite charSigned Plugin.defined fs ps).1.map Handed.entered) :
    ∀ p ∈ ps, Unhidden fs p := by
  induction ps generalizing fs with
  | nil => intro p hp; simp at hp
  | cons p ps ih =>
    have hf : p.filter = true := hps p (List.mem_cons_self ..)
    unfold relayWrite at h
    simp only [List.map_cons, List.cons.injEq] at h
    obtain ⟨hhead, htail⟩ := h
    have hp : Unhidden fs p := by
      apply unhidden_of_entered charSigned
      simpa only [filterStage, hf, if_true, Filtered.handed] using hhead
    rw [← filterStage_eq_of_unhidden charSigned hp] at htail
    intro q hq
    rcases List.mem_cons.1 hq with rfl | hq
    · exact hp
    · have := ih (fun r hr => hps r (List.mem_cons_of_mem _ hr)) htail q hq
      rwa [unhidden_iff_heads, heads_filterStage, ← unhidden_iff_heads] at this

/-- **The vtable against the class bodies.**  For packets that ask for filtering, the bodies entered
are the ones the classes define exactly when no plugin that only hides the virtual accepts any of
them; then every packet handed to `send_data` or withheld, and every plugin state, is the one those
bodies give. -/
theorem relayWrite_slot_iff (fs : List Plugin) (ps : List Packet) (hps : ∀ p ∈ ps, p.filter = true) :
    ((relayWrite charSigned Plugin.slot fs ps).1.map Handed.entered =
        (relayWrite charSigned Plugin.defined fs ps).1.map Handed.entered ↔
      ∀ p ∈ ps, Unhidden fs p) ∧
    ((∀ p ∈ ps, Unhidden fs p) →
      relayWrite charSigned Plugin.slot fs ps = relayWrite charSigned Plugin.defined fs ps) := by
  refine ⟨⟨unhidden_of_relayWrite charSigned hps, fun h => ?_⟩, relayWrite_eq_of_unhidden charSigned⟩
  rw [relayWrite_eq_of_unhidden charSigned h]

def keyReport : Packet := Packet.new 0x81 (some [0, 0, 4, 0, 0, 0, 0, 0]) 8

def blockWrite : Packet := Packet.new 0x02 (some [65, 66]) 2

/-- A `PacketFilter_ROT13` for packets that begin with an `a`. -/
def rot13OfA : Plugin where
  base := { PacketFilter.new with
    packetHeader := 97 :: List.replicate 7 0, packetHeaderMask := 0xff :: List.replicate 7 0
    packetHeaderMaskLength := 1 }
  cls := .rot13

/-- A capture plugin takes every packet, and a plugin that hides the virtual none of them. -/
theorem relayWrite_slot_iff_streamLog :
    relayWrite true Plugin.slot [⟨.new, .streamLog []⟩, rot13OfA] [keyReport, blockWrite] =
        relayWrite true Plugin.defined [⟨.new, .streamLog []⟩, rot13OfA] [keyReport, blockWrite] ∧
      (relayWrite true Plugin.slot [⟨.new, .streamLog []⟩, rot13OfA]
        [keyReport, blockWrite]).1.map Handed.entered ≠ [] := by
  refine ⟨(relayWrite_slot_iff true [⟨.new, .streamLog []⟩, rot13OfA] [keyReport, blockWrite]
    (by decide)).2 ?_, by decide⟩
  intro p hp f hf hh
  rcases List.mem_pair.1 hf with rfl | rfl
  · cases hh
  · rcases List.mem_pair.1 hp with rfl | rfl <;> decide

/-- One `PacketFilter_ROT13` and one report: the class body rotates the key, the call does not. -/
theorem relayWrite_rot13_not_called :
    ¬ ∀ (charSigned : Bool) (fs : List Plugin) (ps : List Packet), (∀ p ∈ ps, p.filter = true) →
      (relayWrite charSigned Plugin.slot fs ps).1.map Handed.sent =
        (relayWrite charSigned Plugin.defined fs ps).1.map Handed.sent := by
  intro h
  exact absurd (h true [⟨.new, .rot13⟩] [keyReport] (by decide)) (by decide)

end UsbProxy
