import UsbProxy.Library.Runs
import UsbProxy.SetupRelay

/-!
# SET_CONFIGURATION through the setup writer

A session is the setup writer handling one packet after another, with the value of the last
SET_CONFIGURATION the device took.  The writer calls `setConfig` for every SET_CONFIGURATION it
sends, whatever the device answers, and with a byte of the value; `follows_iff` says which sessions
keep the manager on the device's configuration.
-/

namespace UsbProxy

/-- What a round does about configurations: nothing without a transfer; otherwise what `configure`
does with the request. -/
theorem Round.configures {w : SetupWriter} {packet : SetupPacket} {o : Outcome} {rep : SetupReport}
    (h : Round w packet o rep) :
    (w.request packet = none ∧ rep.transfer = none ∧ rep.setConfig = none ∧
      rep.writer.manager = w.manager ∧ rep.ending = .returns) ∨
    ∃ r, w.request packet = some r ∧ rep.transfer = some r ∧ rep.accepted = o.accepted ∧
      rep.setConfig = (if r.setsConfiguration then some r.wValue.toUInt8 else none) ∧
      rep.writer.manager = (w.configure r).1 ∧ rep.ending = (w.configure r).2 := by
  cases h with
  | discarded h => exact .inl ⟨h, rfl, rfl, rfl, rfl⟩
  | @fromDevice r h hr =>
    have hc : ¬ r.setsConfiguration = true := fun hc => by
      simp [CtrlRequest.deviceToHost_of_setsConfiguration hc] at hr
    have hconf : w.configure r = (w.manager, .returns) := if_neg hc
    refine .inr ⟨r, h, rfl, rfl, ?_⟩
    rw [hconf, if_neg hc]
    exact ⟨rfl, rfl, rfl⟩
  | toDevice h hr hend => exact .inr ⟨_, h, rfl, rfl, rfl, rfl, rfl⟩
  | ends h hr hend => exact .inr ⟨_, h, rfl, rfl, rfl, rfl, rfl⟩

/-! ## Sessions -/

structure ConfigSession where
  writer : SetupWriter
  /-- The value of the last SET_CONFIGURATION the device took, zero before the first. -/
  accepted : UInt16

/-- One handled packet: what the round did, and the value the device took last by then. -/
structure ConfigEvent where
  report : SetupReport
  accepted : UInt16

/-- `setConfig` was called for a SET_CONFIGURATION the device took and for nothing else, with the
value the device took, and unless the process ended in `stopEps` the manager is where the device
is. -/
structure ConfigEvent.Follows (e : ConfigEvent) : Prop where
  calls : ∀ v, e.report.setConfig = some v ↔
    ∃ r, e.report.transfer = some r ∧ r.setsConfiguration = true ∧ e.report.accepted = true ∧
      v.toNat = r.wValue.toNat
  agrees : e.report.ending ≠ .exits → e.report.writer.manager.Agrees e.accepted

namespace ConfigSession

def new (filters : List Plugin) (length : ℤ) (device : Device) : ConfigSession :=
  { writer := { filters, length, manager := .new device }, accepted := 0 }

/-- The round of a dequeued packet the device answers with an outcome. -/
def event (s : ConfigSession) (i : SetupPacket × Outcome) : ConfigEvent :=
  let report := relayWriteSetup s.writer i.1 i.2
  { report
    accepted := match report.transfer with
      | none => s.accepted
      | some r => if r.setsConfiguration ∧ report.accepted then r.wValue else s.accepted }

def step (s : ConfigSession) (i : SetupPacket × Outcome) : Option ConfigSession :=
  if (s.event i).report.ending = .returns then
    some { writer := (s.event i).report.writer, accepted := (s.event i).accepted }
  else none

/-- A SET_CONFIGURATION the device gets is taken, its value fits in a byte, and while no
configuration is set the value is in the range of the device model. -/
def InStep (s : ConfigSession) (i : SetupPacket × Outcome) : Prop :=
  ∀ r, s.writer.request i.1 = some r → r.setsConfiguration = true →
    i.2.accepted = true ∧ r.wValue.toNat < 256 ∧
      (s.writer.manager.configurationNumber = 0 →
        r.wValue.toNat ≤ s.writer.manager.device.bNumConfigurations.toNat)

/-- The manager is on the device's configuration, and that configuration can be looked up. -/
structure Synced (s : ConfigSession) : Prop where
  agrees : s.writer.manager.Agrees s.accepted
  active : s.writer.manager.Active

variable {s t : ConfigSession} {i : SetupPacket × Outcome}

/-- The calls are right exactly when the device took the request and its value fits in a byte. -/
theorem calls_iff {r : CtrlRequest} {accepted : Bool} :
    (∀ v, some r.wValue.toUInt8 = some v ↔
      accepted = true ∧ v.toNat = r.wValue.toNat) ↔
      accepted = true ∧ r.wValue.toNat < 256 := by
  have hmod : r.wValue.toUInt8.toNat = r.wValue.toNat % 256 := by rw [UInt16.toNat_toUInt8]
  constructor
  · intro h
    obtain ⟨ha, hv⟩ := (h _).1 rfl
    exact ⟨ha, by omega⟩
  · rintro ⟨ha, hlt⟩ v
    constructor
    · rintro h
      cases h
      exact ⟨ha, by omega⟩
    · rintro ⟨-, hv⟩
      exact congrArg some (UInt8.toNat_inj.1 (by omega))

theorem accepted_of_no_call
    (hno : ∀ r, (s.event i).report.transfer = some r → ¬ r.setsConfiguration = true) :
    (s.event i).accepted = s.accepted := by
  show (match (s.event i).report.transfer with
    | none => s.accepted
    | some r => if r.setsConfiguration ∧ (s.event i).report.accepted then r.wValue else s.accepted) =
      s.accepted
  cases h : (s.event i).report.transfer with
  | none => rfl
  | some r => exact if_neg fun hc => hno r h hc.1

theorem accepted_of_call {r : CtrlRequest} (htransfer : (s.event i).report.transfer = some r)
    (hc : r.setsConfiguration = true) (ha : (s.event i).report.accepted = true) :
    (s.event i).accepted = r.wValue := by
  show (match (s.event i).report.transfer with
    | none => s.accepted
    | some r => if r.setsConfiguration ∧ (s.event i).report.accepted then r.wValue else s.accepted) =
      r.wValue
  rw [htransfer]
  exact if_pos ⟨hc, ha⟩

theorem follows_of_no_call (hs : s.Synced)
    (hno : ∀ r, (s.event i).report.transfer = some r → ¬ r.setsConfiguration = true)
    (hcall : (s.event i).report.setConfig = none)
    (hmanager : (s.event i).report.writer.manager = s.writer.manager) : (s.event i).Follows where
  calls v := by
    rw [hcall]
    refine iff_of_false (fun h => by cases h) ?_
    rintro ⟨r, hr, hc, -⟩
    exact hno r hr hc
  agrees _ := by
    rw [hmanager, accepted_of_no_call hno]
    exact hs.agrees

/-- A packet that sets a configuration: the calls are right exactly when the device takes the value
and the value fits, and then the manager follows exactly when the value is in range. -/
theorem follows_of_call (hs : s.Synced) {r : CtrlRequest} (hc : r.setsConfiguration = true)
    (htransfer : (s.event i).report.transfer = some r)
    (haccepted : (s.event i).report.accepted = i.2.accepted)
    (hcall : (s.event i).report.setConfig = some r.wValue.toUInt8)
    (hmanager : (s.event i).report.writer.manager =
      (s.writer.manager.setConfig r.wValue.toUInt8).1)
    (hend : (s.event i).report.ending = (s.writer.manager.setConfig r.wValue.toUInt8).2.1) :
    (s.event i).Follows ↔ i.2.accepted = true ∧ r.wValue.toNat < 256 ∧
      (s.writer.manager.configurationNumber = 0 →
        r.wValue.toNat ≤ s.writer.manager.device.bNumConfigurations.toNat) := by
  have hcalls : (∀ v, (s.event i).report.setConfig = some v ↔
      ∃ r, (s.event i).report.transfer = some r ∧ r.setsConfiguration = true ∧
        (s.event i).report.accepted = true ∧ v.toNat = r.wValue.toNat) ↔
      i.2.accepted = true ∧ r.wValue.toNat < 256 := by
    rw [← calls_iff]
    refine forall_congr' fun v => iff_congr (by rw [hcall]) ?_
    constructor
    · rintro ⟨r', hr', -, ha, hv⟩
      obtain rfl := Option.some.inj (htransfer.symm.trans hr')
      exact ⟨haccepted.symm.trans ha, hv⟩
    · rintro ⟨ha, hv⟩
      exact ⟨r, htransfer, hc, haccepted.trans ha, hv⟩
  have hagrees (ha : i.2.accepted = true) (hw : r.wValue.toNat < 256) :
      ((s.event i).report.ending ≠ .exits →
        (s.event i).report.writer.manager.Agrees (s.event i).accepted) ↔
      (s.writer.manager.configurationNumber = 0 →
        r.wValue.toNat ≤ s.writer.manager.device.bNumConfigurations.toNat) := by
    rw [accepted_of_call htransfer hc (haccepted.trans ha), hmanager, hend]
    exact Manager.agrees_setConfig hs.agrees hs.active hw
  constructor
  · intro h
    obtain ⟨ha, hw⟩ := hcalls.1 h.calls
    exact ⟨ha, hw, (hagrees ha hw).1 h.agrees⟩
  · rintro ⟨ha, hw, hrange⟩
    exact ⟨hcalls.2 ⟨ha, hw⟩, (hagrees ha hw).2 hrange⟩

theorem follows_iff_inStep (hs : s.Synced) : (s.event i).Follows ↔ s.InStep i := by
  rcases (relayWriteSetup_round s.writer i.1 i.2).configures with
    ⟨hnone, htransfer, hcall, hmanager, -⟩ | ⟨r, hsome, htransfer, haccepted, hcall, hmanager, hend⟩
  · refine iff_of_true (follows_of_no_call hs (fun r hr => ?_) hcall hmanager) fun r hr => ?_
    · cases htransfer.symm.trans hr
    · cases hnone.symm.trans hr
  · by_cases hc : r.setsConfiguration = true
    · have hconf : s.writer.configure r = ((s.writer.manager.setConfig r.wValue.toUInt8).1,
        (s.writer.manager.setConfig r.wValue.toUInt8).2.1) := if_pos hc
      rw [if_pos hc] at hcall
      rw [hconf] at hmanager hend
      apply (follows_of_call hs hc htransfer haccepted hcall hmanager hend).trans
      constructor
      · intro h r' hr' _
        obtain rfl := Option.some.inj (hsome.symm.trans hr')
        exact h
      · exact fun h => h r hsome hc
    · have hconf : s.writer.configure r = (s.writer.manager, .returns) := if_neg hc
      rw [if_neg hc] at hcall
      rw [hconf] at hmanager
      refine iff_of_true (follows_of_no_call hs (fun r' hr' => ?_) hcall hmanager)
        fun r' hr' hc' => ?_
      · rwa [← Option.some.inj (htransfer.symm.trans hr')]
      · exact absurd (Option.some.inj (hsome.symm.trans hr') ▸ hc') hc

theorem active_step (h : (s.event i).report.ending = .returns) (hs : s.Synced) :
    (s.event i).report.writer.manager.Active := by
  rcases (relayWriteSetup_round s.writer i.1 i.2).configures with
    ⟨-, -, -, hmanager, -⟩ | ⟨r, -, -, -, -, hmanager, hend⟩
  · exact (congrArg Manager.Active hmanager).mpr hs.active
  · apply (congrArg Manager.Active hmanager).mpr
    have hreturns : (s.writer.configure r).2 = .returns := hend.symm.trans h
    unfold SetupWriter.configure at hreturns ⊢
    split_ifs at hreturns ⊢
    · exact Manager.active_setConfig hreturns hs.active
    · exact hs.active

/-- A packet that meets `InStep` leaves the session synced. -/
theorem synced_step (h : s.step i = some t) (hi : s.InStep i) (hs : s.Synced) : t.Synced := by
  have hfollows := (follows_iff_inStep hs).2 hi
  unfold step at h
  split_ifs at h with hend
  cases h
  exact ⟨hfollows.agrees (by rw [hend]; decide), active_step hend hs⟩

/-- **The manager follows the device.**  In the rounds of a whole session, `setConfig` is called for
exactly the SET_CONFIGURATION transfers the device took, with their value, and the manager stays on
the device's configuration, if and only if every SET_CONFIGURATION sent is taken, has a value below
256, and names a configuration of the device model while none is set. -/
theorem follows_iff (filters : List Plugin) (length : ℤ) (device : Device)
    (packets : List (SetupPacket × Outcome)) :
    (∀ e ∈ Runs.outputs step event (new filters length device) packets, e.Follows) ↔
      Runs.Along step InStep (new filters length device) packets :=
  Runs.outputs_forall_iff Synced (fun _ _ _ => synced_step) (fun _ _ => follows_iff_inStep)
    ⟨Manager.agrees_new device, Manager.active_new device⟩ packets

def oneConfiguration : Device where
  bNumConfigurations := 1
  configurations := [some (.new
    { bLength := 9, bDescriptorType := 2, wTotalLength := 9, bNumInterfaces := 0
      bConfigurationValue := 1, iConfiguration := 0, bmAttributes := 0x80, bMaxPower := 50 })]
  configurations_length := rfl
  deviceConfigurationIndex := 0
  qualifier := none
  highspeed := false

def setConfiguration (wValue : UInt16) : SetupPacket :=
  .new { bRequestType := 0, bRequest := 9, wValue, wIndex := 0, wLength := 0 } none

/-- The device stalls SET_CONFIGURATION 1, and the manager takes the configuration all the same. -/
theorem not_follows_stalled :
    ¬ ∀ e ∈ Runs.outputs step event (new [] 0 oneConfiguration) [(setConfiguration 1, .failure)],
      e.Follows := by
  intro h
  obtain ⟨_, _, _, ha, _⟩ := ((h _ (.head _)).calls 1).1 rfl
  exact absurd ha (by decide)

end ConfigSession

end UsbProxy
