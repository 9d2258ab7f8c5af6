import UsbProxy.ReplyLength

/-!
# The power filter

`PacketFilter_Power` acts where its `direction_in` is true and `wValue` is 2, the type of a configuration
descriptor in the low byte.  The relay passes true in the out-phase, where a request for a descriptor has
no data.  `relayed_iff` says on which transfers the filter still does what it is for.
-/

namespace UsbProxy

/-- A control transfer as the host begins it, and what the device does. -/
structure ControlTransfer where
  ctrlReq : CtrlRequest
  payload : List Byte
  outcome : Outcome
  deriving DecidableEq, Repr

namespace ControlTransfer

/-- The packet of the setup reader: only a host-to-device request has data. -/
def packet (t : ControlTransfer) : SetupPacket :=
  .new t.ctrlReq <|
    if t.ctrlReq.deviceToHost ∨ t.ctrlReq.wLength = 0 then none
    else some (t.payload.takeD t.ctrlReq.wLength.toNat 0)

/-- A request for a configuration descriptor, `(bRequestType & USB_DIR_IN) && bRequest ==
USB_REQ_GET_DESCRIPTOR` as the devices test for one, that gets at least nine bytes. -/
def GetsConfiguration (t : ControlTransfer) : Prop :=
  t.ctrlReq.deviceToHost = true ∧ t.ctrlReq.bRequest = 6 ∧ t.ctrlReq.wValue >>> 8 = 2 ∧
    9 ≤ (t.outcome.moved t.ctrlReq.wLength).length

instance (t : ControlTransfer) : Decidable t.GetsConfiguration := inferInstanceAs (Decidable (_ ∧ _))

end ControlTransfer

/-- `bmAttributes` is `USB_CONFIG_ATT_ONE` and `bMaxPower` is 0x32. -/
def Forced (bytes : List Byte) : Prop := bytes[7]? = some 0x80 ∧ bytes[8]? = some 0x32

instance (bytes : List Byte) : Decidable (Forced bytes) := inferInstanceAs (Decidable (_ ∧ _))

def force (bytes : List Byte) : List Byte := (bytes.set 7 0x80).set 8 0x32

/-- The condition of `filter_setup_packet`. -/
def PowerActs (packet : SetupPacket) (directionIn : Bool) : Prop :=
  directionIn = true ∧ packet.ctrlReq.bRequest = 6 ∧ packet.ctrlReq.wValue = 2

def powerPlugin : Plugin := { base := .new, cls := .power }

namespace SetupWriter

/-- The writer with the power filter alone, and without filters. -/
def power (length : ℤ) (manager : Manager) : SetupWriter := { filters := [powerPlugin], length, manager }

def plain (w : SetupWriter) : SetupWriter := { w with filters := [] }

def relay (w : SetupWriter) (t : ControlTransfer) : Option SetupWriter := w.step (t.packet, t.outcome)

/-- The device gets what the host sent; the host gets what the device sent, a configuration descriptor
with the two bytes changed; and every access of the filter is inside of a block. -/
structure Relayed (w : SetupWriter) (t : ControlTransfer) : Prop where
  outgoing : w.outgoing t.packet = t.packet
  reply : (w.round (t.packet, t.outcome)).reply =
    (w.plain.round (t.packet, t.outcome)).reply.map fun s =>
      if t.GetsConfiguration then { s with data := s.data.map force } else s
  safe : PowerActs t.packet true → 9 ≤ t.packet.dataSize

end SetupWriter

/-- The filter has nothing left to do: a request it takes for one of a configuration descriptor has the
two bytes in its data, and a configuration descriptor has them already. -/
def ControlTransfer.Untouched (t : ControlTransfer) : Prop :=
  (t.ctrlReq.bRequest = 6 ∧ t.ctrlReq.wValue = 2 → Forced (t.packet.data.getD [])) ∧
    (t.GetsConfiguration → Forced (t.outcome.moved t.ctrlReq.wLength))

/-! ## The two bytes -/

section Bytes

variable {bytes : List Byte}

theorem force_eq_iff (h : 9 ≤ bytes.length) : force bytes = bytes ↔ Forced bytes := by
  unfold force Forced
  constructor
  · intro heq
    constructor
    · rw [← heq, List.getElem?_set_ne (by decide), List.getElem?_set_self (by omega)]
    · rw [← heq, List.getElem?_set_self (by rw [List.length_set]; omega)]
  · rintro ⟨h7, h8⟩
    apply List.ext_getElem?
    intro i
    rcases eq_or_ne i 8 with rfl | h8'
    · rw [List.getElem?_set_self (by rw [List.length_set]; omega), h8]
    · rw [List.getElem?_set_ne h8'.symm]
      rcases eq_or_ne i 7 with rfl | h7'
      · rw [List.getElem?_set_self (by omega), h7]
      · rw [List.getElem?_set_ne h7'.symm]

theorem length_of_forced (h : Forced bytes) : 9 ≤ bytes.length :=
  (List.getElem?_eq_some_iff.1 h.2).1

theorem forced_takeD_iff {n : ℕ} (h : 9 ≤ bytes.length) (hn : bytes.length ≤ n) :
    Forced (bytes.takeD n 0) ↔ Forced bytes := by
  unfold Forced
  rw [takeD_of_length_le 0 hn, List.getElem?_append_left (by omega),
    List.getElem?_append_left (by omega)]

end Bytes

/-! ## One transfer -/

theorem moved_length_le (n : UInt16) (o : Outcome) : (o.moved n).length ≤ n.toNat := by
  cases o with
  | success bytes => exact List.length_take_le _ _
  | failure => exact Nat.zero_le _

section Transfer

variable {w : SetupWriter} {t : ControlTransfer} {s : SetupPacket}

theorem powerSetup_of_acts (h : PowerActs s true) :
    powerSetup s true = { s with data := s.data.map force } := by
  refine (if_pos h).trans ?_
  obtain ⟨⟨_, _, _, _, data⟩, _, _, _, _, _, _⟩ := s
  cases data <;> rfl

theorem powerSetup_of_not_acts {directionIn : Bool} (h : ¬ PowerActs s directionIn) :
    powerSetup s directionIn = s := if_neg h

theorem outPhase_power (hfilter : s.filter = true) (hout : s.filterOut = true) :
    outPhase [powerPlugin] s = ([powerPlugin], powerSetup s true, 1) := by
  unfold outPhase
  rw [if_pos hfilter, filterOutLoop, if_pos hout]
  rfl

/-- In the in-phase the filter leaves every packet alone, if it is called at all. -/
theorem inPhase_power (j : ℕ) (s : SetupPacket) :
    (inPhase j [powerPlugin] s).1 = [powerPlugin] ∧ (inPhase j [powerPlugin] s).2.1 = s := by
  have htest : powerPlugin.base.testSetupPacket s false = true := rfl
  have hcall : powerPlugin.filterSetupPacket s false = (powerPlugin, s) :=
    congrArg (powerPlugin, ·) (powerSetup_of_not_acts fun h => Bool.false_ne_true h.1)
  unfold inPhase
  by_cases hfilter : s.filter = true
  · rw [if_pos hfilter]
    cases j with
    | zero =>
      rw [List.drop_zero, List.take_zero, filterInLoop]
      by_cases hin : s.filterIn = true
      · rw [if_pos hin, if_pos htest, hcall]
        exact ⟨rfl, rfl⟩
      · rw [if_neg hin]
        exact ⟨rfl, rfl⟩
    | succ j =>
      rw [List.drop_succ_cons, List.drop_nil, List.take_succ_cons, List.take_nil]
      exact ⟨rfl, rfl⟩
  · rw [if_neg hfilter]
    exact ⟨rfl, rfl⟩

theorem inPhase_nil (j : ℕ) (s : SetupPacket) : (inPhase j [] s).2.1 = s := by
  unfold inPhase
  split_ifs
  · rw [List.drop_nil]
    rfl
  · rfl

/-- What the device gets: the packet, with the two bytes set if the filter acts on it. -/
theorem outgoing_power (hw : w.filters = [powerPlugin]) (t : ControlTransfer) :
    w.outgoing t.packet = powerSetup t.packet true := by
  unfold SetupWriter.outgoing
  rw [hw, outPhase_power rfl rfl]

/-- The reply of a transfer that the filters leave alone. -/
def SetupWriter.bareReply (w : SetupWriter) (t : ControlTransfer) : Option SetupPacket :=
  if t.ctrlReq.deviceToHost = true then some (readFromDevice t.packet w.length t.outcome)
  else if (w.configure t.ctrlReq).2 = .returns then some (writeToDevice t.packet t.outcome)
  else none

theorem reply_eq_bareReply (hout : w.outgoing t.packet = t.packet)
    (hin : ∀ j s, (inPhase j (outPhase w.filters t.packet).1 s).2.1 = s) :
    (w.round (t.packet, t.outcome)).reply = w.bareReply t := by
  have hrequest : w.request t.packet = some t.ctrlReq := by
    unfold SetupWriter.request
    rw [hout]
    rfl
  have hround := relayWriteSetup_round w t.packet t.outcome
  unfold SetupWriter.round
  generalize relayWriteSetup w t.packet t.outcome = rep at hround
  cases hround with
  | discarded h => rw [h] at hrequest; cases hrequest
  | fromDevice h hr =>
    obtain rfl := Option.some.inj (h.symm.trans hrequest)
    have hbare : w.bareReply t = some (readFromDevice t.packet w.length t.outcome) := if_pos hr
    rw [hbare, hout]
    exact congrArg some (hin _ _)
  | toDevice h hr hend =>
    obtain rfl := Option.some.inj (h.symm.trans hrequest)
    have hbare : w.bareReply t = some (writeToDevice t.packet t.outcome) :=
      (if_neg (by rw [hr]; decide)).trans (if_pos hend)
    rw [hbare, hout]
    exact congrArg some (hin _ _)
  | ends h hr hend =>
    obtain rfl := Option.some.inj (h.symm.trans hrequest)
    exact ((if_neg (by rw [hr]; decide)).trans (if_neg hend)).symm

theorem reply_plain (w : SetupWriter) (t : ControlTransfer) :
    (w.plain.round (t.packet, t.outcome)).reply = w.plain.bareReply t :=
  reply_eq_bareReply rfl inPhase_nil

/-- If the device gets the packet of the host, the round is one without the filter. -/
theorem reply_power (hw : w.filters = [powerPlugin]) (h : w.outgoing t.packet = t.packet) :
    (w.round (t.packet, t.outcome)).reply = (w.plain.round (t.packet, t.outcome)).reply := by
  have hfilters : (outPhase w.filters t.packet).1 = [powerPlugin] := by
    rw [hw, outPhase_power rfl rfl]
  rw [reply_plain, reply_eq_bareReply h fun j s => by rw [hfilters]; exact (inPhase_power j s).2]
  rfl

/-- The device gets the packet of the host, by an access inside of its block. -/
theorem outgoing_iff (hw : w.filters = [powerPlugin]) :
    (w.outgoing t.packet = t.packet ∧ (PowerActs t.packet true → 9 ≤ t.packet.dataSize)) ↔
      (t.ctrlReq.bRequest = 6 ∧ t.ctrlReq.wValue = 2 → Forced (t.packet.data.getD [])) := by
  rw [outgoing_power hw]
  by_cases hacts : PowerActs t.packet true
  · rw [powerSetup_of_acts hacts]
    unfold SetupPacket.dataSize
    have hdata : ({ t.packet with data := t.packet.data.map force } : SetupPacket) = t.packet ↔
        t.packet.data.map force = t.packet.data :=
      ⟨fun h => congrArg (fun s : SetupPacket => s.data) h, fun h => by rw [h]⟩
    rw [hdata]
    have hcond : t.ctrlReq.bRequest = 6 ∧ t.ctrlReq.wValue = 2 := hacts.2
    constructor
    · rintro ⟨hsame, hsafe⟩ -
      have hlen := hsafe hacts
      cases hd : t.packet.data with
      | none =>
        rw [hd] at hlen
        exact absurd hlen (by decide)
      | some bytes =>
        rw [hd] at hsame hlen
        exact (force_eq_iff hlen).1 (Option.some.inj hsame)
    · intro h
      have hforced := h hcond
      refine ⟨?_, fun _ => length_of_forced hforced⟩
      cases hd : t.packet.data with
      | none => rfl
      | some bytes =>
        rw [hd] at hforced
        exact congrArg some ((force_eq_iff (length_of_forced hforced)).2 hforced)
  · rw [powerSetup_of_not_acts hacts]
    exact iff_of_true ⟨rfl, fun h => absurd h hacts⟩ fun h => absurd ⟨rfl, h⟩ hacts

/-- The host gets a configuration descriptor with the two bytes changed only if they were so before. -/
theorem reply_forced_iff (w : SetupWriter) :
    ((w.bareReply t = (w.bareReply t).map fun s =>
        if t.GetsConfiguration then { s with data := s.data.map force } else s) ↔
      (t.GetsConfiguration → Forced (t.outcome.moved t.ctrlReq.wLength))) := by
  by_cases hc : t.GetsConfiguration
  · have hbare : w.bareReply t = some (readFromDevice t.packet w.length t.outcome) := if_pos hc.1
    have hle : (t.outcome.moved t.ctrlReq.wLength).length ≤ t.ctrlReq.wLength.toNat :=
      moved_length_le t.ctrlReq.wLength t.outcome
    rw [hbare, Option.map_some, if_pos hc, Option.some.injEq, ← forced_takeD_iff hc.2.2.2 hle,
      ← force_eq_iff (by rw [List.takeD_length]; exact Nat.le_trans hc.2.2.2 hle)]
    constructor
    · intro h _
      exact Option.some.inj (congrArg (fun s : SetupPacket => s.data) h).symm
    · intro h
      unfold readFromDevice
      rw [Option.map_some, show t.packet.ctrlReq = t.ctrlReq from rfl, h hc]
  · refine iff_of_true ?_ fun h => absurd h hc
    simp only [if_neg hc, Option.map_id']

theorem relayed_transfer_iff (hw : w.filters = [powerPlugin]) : w.Relayed t ↔ t.Untouched := by
  have hout := outgoing_iff (t := t) hw
  have hreply := reply_forced_iff (t := t) w.plain
  rw [← reply_plain] at hreply
  constructor
  · rintro ⟨hsame, hr, hsafe⟩
    rw [reply_power hw hsame] at hr
    exact ⟨hout.1 ⟨hsame, hsafe⟩, hreply.1 hr⟩
  · rintro ⟨hout', hreply'⟩
    obtain ⟨hsame, hsafe⟩ := hout.2 hout'
    exact ⟨hsame, (reply_power hw hsame).trans (hreply.2 hreply'), hsafe⟩

end Transfer

/-! ## Every sequence of transfers -/

namespace SetupWriter

theorem filters_of_relay {w w' : SetupWriter} {t : ControlTransfer} (h : w.relay t = some w')
    (hw : w.filters = [powerPlugin]) : w'.filters = [powerPlugin] := by
  have hout : (outPhase w.filters t.packet).1 = [powerPlugin] := by
    rw [hw, outPhase_power rfl rfl]
  unfold relay step at h
  split_ifs at h
  rw [← Option.some.inj h]
  unfold round
  have hround := relayWriteSetup_round w t.packet t.outcome
  generalize relayWriteSetup w t.packet t.outcome = rep at hround
  cases hround with
  | discarded => exact hout
  | fromDevice => rw [hout]; exact (inPhase_power _ _).1
  | toDevice => rw [hout]; exact (inPhase_power _ _).1
  | ends => exact hout

/-- **Every transfer is relayed as it should be exactly when the filter has nothing left to do on any
of them:** in the out-phase it looks for a value of 2 and a block, in the in-phase it does nothing. -/
theorem relayed_iff :
    ∀ (length : ℤ) (manager : Manager) (transfers : List ControlTransfer),
      (∀ o ∈ Runs.outputs relay (fun w t => (w, t)) (power length manager) transfers,
          o.1.Relayed o.2) ↔
        Runs.Along relay (fun _ t => t.Untouched) (power length manager) transfers := by
  intro length manager transfers
  refine Runs.outputs_forall_iff (fun w => w.filters = [powerPlugin]) ?_ ?_ rfl transfers
  · exact fun w t w' hstep _ hw => filters_of_relay hstep hw
  · exact fun w t hw => relayed_transfer_iff hw

/-- A configuration descriptor of nine bytes reaches the host as it is, and a request whose value is 2
makes the filter write through a null pointer. -/
theorem relayed_fails :
    let w : SetupWriter := power 0 (.new .bare)
    let descriptor : ControlTransfer :=
      ⟨⟨0x80, 6, 0x0200, 0, 9⟩, [], .success [9, 2, 34, 0, 1, 1, 0, 0xA0, 0xFA]⟩
    let value : ControlTransfer := ⟨⟨0x80, 6, 2, 0, 9⟩, [], .success []⟩
    (w.round (descriptor.packet, descriptor.outcome)).reply.map (·.data) =
        some (some [9, 2, 34, 0, 1, 1, 0, 0xA0, 0xFA]) ∧
      descriptor.GetsConfiguration ∧ ¬ w.Relayed descriptor ∧
      PowerActs value.packet true ∧ value.packet.data = none ∧ ¬ w.Relayed value := by
  refine ⟨by decide, by decide, ?_, ⟨rfl, rfl, rfl⟩, rfl, ?_⟩
  · intro h
    exact absurd h.reply (by decide)
  · intro h
    exact absurd (h.safe ⟨rfl, rfl, rfl⟩) (by decide)

end SetupWriter

end UsbProxy
