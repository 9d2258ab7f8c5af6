import UsbProxy.Configuration

/-!
# Setting a configuration

The parts of `Device` and `Manager` behind `Manager::setConfig`: the device model with its active
configuration, and the start of data relaying, which follows the active configuration's pointers.
Changing from one configuration to another goes through `stopEps`, whose workaround ends the process
with `exit(-1)`.
-/

namespace UsbProxy

structure ConfigurationTable where
  bNumConfigurations : Byte
  configurations : List (Option Configuration)
  /-- `calloc(descriptor.bNumConfigurations)`. -/
  configurations_length : configurations.length = bNumConfigurations.toNat

def ConfigurationTable.getConfiguration (t : ConfigurationTable) (index : Byte) :
    Option Configuration :=
  if t.bNumConfigurations < index ∨ index < 1 then none
  else (t.configurations[index.toNat - 1]?).join

structure Device extends ConfigurationTable where
  deviceConfigurationIndex : ℤ
  qualifier : Option ConfigurationTable
  highspeed : Bool

namespace Device

/-- The index is narrowed to a byte on the way to `get_configuration`. -/
def getActiveConfiguration (d : Device) : Option Configuration :=
  if d.deviceConfigurationIndex < 0 then none
  else d.getConfiguration (UInt8.ofNat d.deviceConfigurationIndex.toNat)

def setActiveConfiguration (d : Device) (index : Byte) : Device :=
  { d with
    deviceConfigurationIndex :=
      if d.bNumConfigurations < index ∨ index < 1 then -1 else (index.toNat : ℤ) }

/-- A device without configurations. -/
def bare : Device where
  bNumConfigurations := 0
  configurations := []
  configurations_length := rfl
  deviceConfigurationIndex := 0
  qualifier := none
  highspeed := false

end Device

/-- How a call that may end the process comes out. -/
inductive Ending
  | returns
  /-- `exit(-1)` in `stopEps`. -/
  | exits
  /-- A null pointer is followed. -/
  | crashes
  deriving DecidableEq, Repr

/-- The arguments `setConfig` hands to the device proxy and the host proxy. -/
structure ProxyConfig where
  fsCfg : Option Configuration
  hsCfg : Option Configuration
  hs : Bool

structure Manager where
  configurationNumber : Byte
  device : Device

namespace Manager

/-- `Manager::Manager`, with the device model loaded. -/
def new (device : Device) : Manager := { configurationNumber := 0, device }

/-- `start_data_relaying` follows the active configuration, every alternate setting in its groups'
arrays and every endpoint in theirs. -/
def startDataRelaying (m : Manager) : Ending :=
  match m.device.getActiveConfiguration with
  | none => .crashes
  | some cfg =>
    if cfg.interfaceGroups.reduceOption.all fun g => g.alternates.all fun i =>
      match i with
      | none => false
      | some aifc => aifc.endpoints.all Option.isSome
    then .returns else .crashes

/-- `stopEps` releases the interfaces of the active configuration, then exits. -/
def stopEps (m : Manager) : Ending :=
  if m.device.getActiveConfiguration.isSome then .exits else .crashes

def setConfig (m : Manager) (index : Byte) : Manager × Ending × Option ProxyConfig :=
  if m.configurationNumber ≠ 0 ∧ m.configurationNumber ≠ index then (m, m.stopEps, none)
  else if m.configurationNumber = index then (m, .returns, none)
  else if index = 0 then ({ m with configurationNumber := index }, .returns, none)
  else
    let device := m.device.setActiveConfiguration index
    let m : Manager := { configurationNumber := index, device }
    let cfg := device.getConfiguration index
    let cfgs : ProxyConfig :=
      match device.qualifier with
      | some qualifier =>
        if device.highspeed then ⟨qualifier.getConfiguration index, cfg, true⟩
        else ⟨cfg, qualifier.getConfiguration index, false⟩
      | none => ⟨cfg, none, device.highspeed⟩
    (m, m.startDataRelaying, some cfgs)

/-- Number and active configuration agree with the value the device took last. -/
def Agrees (m : Manager) (accepted : UInt16) : Prop :=
  m.configurationNumber.toNat = accepted.toNat ∧
    (m.configurationNumber ≠ 0 → m.device.deviceConfigurationIndex = m.configurationNumber.toNat)

/-- A set configuration can be looked up. -/
def Active (m : Manager) : Prop :=
  m.configurationNumber ≠ 0 → m.device.getActiveConfiguration.isSome

variable {m : Manager} {index : Byte}

theorem agrees_new (device : Device) : (new device).Agrees 0 := ⟨rfl, fun h => absurd rfl h⟩

theorem active_new (device : Device) : (new device).Active := fun h => absurd rfl h

theorem setConfig_same (h : m.configurationNumber = index) :
    m.setConfig index = (m, .returns, none) := by
  unfold setConfig
  rw [if_neg (fun hne => hne.2 h), if_pos h]

/-- From one configuration to another there is no way but the end of the process. -/
theorem setConfig_change (h0 : m.configurationNumber ≠ 0) (h : m.configurationNumber ≠ index) :
    m.setConfig index = (m, m.stopEps, none) := by
  unfold setConfig
  rw [if_pos ⟨h0, h⟩]

theorem setConfig_first (h0 : m.configurationNumber = 0) (h : index ≠ 0) :
    (m.setConfig index).1 =
        { configurationNumber := index, device := m.device.setActiveConfiguration index } ∧
      (m.setConfig index).2.1 = startDataRelaying
        { configurationNumber := index, device := m.device.setActiveConfiguration index } := by
  have hne : m.configurationNumber ≠ index := fun he => h (he.symm.trans h0)
  unfold setConfig
  rw [if_neg (fun hc => hc.1 h0), if_neg hne, if_neg h]
  exact ⟨rfl, rfl⟩

theorem active_of_startDataRelaying (h : m.startDataRelaying = .returns) : m.Active := by
  intro _
  unfold startDataRelaying at h
  cases hc : m.device.getActiveConfiguration with
  | none => simp [hc] at h
  | some cfg => rfl

/-- A call that comes back leaves a configuration that can be looked up. -/
theorem active_setConfig (h : (m.setConfig index).2.1 = .returns) (hact : m.Active) :
    (m.setConfig index).1.Active := by
  by_cases hsame : m.configurationNumber = index
  · rw [setConfig_same hsame]
    exact hact
  · by_cases h0 : m.configurationNumber = 0
    · obtain ⟨hstate, hending⟩ := setConfig_first h0 fun h => hsame (h0.trans h.symm)
      rw [hstate]
      exact active_of_startDataRelaying (hending.symm.trans h)
    · rw [setConfig_change h0 hsame] at h
      simp only [stopEps] at h
      split_ifs at h

theorem deviceConfigurationIndex_set {d : Device} (h : index ≠ 0) :
    (d.setActiveConfiguration index).deviceConfigurationIndex = index.toNat ↔
      index.toNat ≤ d.bNumConfigurations.toNat := by
  have h1 : ¬ index < 1 := UInt8.not_lt.2 (one_le_of_ne_zero h)
  show (if d.bNumConfigurations < index ∨ index < 1 then (-1 : ℤ) else index.toNat) = _ ↔ _
  by_cases hgt : d.bNumConfigurations < index
  · rw [if_pos (.inl hgt)]
    have hlt := UInt8.lt_iff_toNat_lt.1 hgt
    refine iff_of_false (fun h => ?_) (Nat.not_le_of_lt hlt)
    cases h
  · rw [if_neg (by rintro (h | h); exacts [hgt h, h1 h])]
    exact iff_of_true rfl (UInt8.le_iff_toNat_le.1 (UInt8.not_lt.1 hgt))

/-- A call with the value the device just took brings the manager to that value, or ends the process
in `stopEps`, exactly when the value is in the range of the device model or another configuration
is set. -/
theorem agrees_setConfig {accepted w : UInt16} (ha : m.Agrees accepted) (hact : m.Active)
    (hw : w.toNat < 256) :
    ((m.setConfig w.toUInt8).2.1 ≠ .exits → (m.setConfig w.toUInt8).1.Agrees w) ↔
      (m.configurationNumber = 0 → w.toNat ≤ m.device.bNumConfigurations.toNat) := by
  have hbyte : w.toUInt8.toNat = w.toNat := by
    rw [UInt16.toNat_toUInt8]
    omega
  by_cases hsame : m.configurationNumber = w.toUInt8
  · rw [setConfig_same hsame]
    have hagrees : m.Agrees w := ⟨by rw [hsame, hbyte], ha.2⟩
    refine iff_of_true (fun _ => hagrees) fun h0 => ?_
    rw [← hbyte, ← hsame, h0]
    exact Nat.zero_le _
  · by_cases h0 : m.configurationNumber = 0
    · have hne : w.toUInt8 ≠ 0 := fun h => hsame (h0.trans h.symm)
      obtain ⟨hstate, hending⟩ := setConfig_first h0 hne
      have hcalm : (m.setConfig w.toUInt8).2.1 ≠ .exits := by
        rw [hending]
        unfold startDataRelaying
        split
        · decide
        · split <;> decide
      rw [hstate, ← hbyte, ← deviceConfigurationIndex_set hne]
      constructor
      · exact fun h _ => (h hcalm).2 hne
      · exact fun h _ => ⟨hbyte, fun _ => h h0⟩
    · rw [setConfig_change h0 hsame]
      refine iff_of_true (fun h => absurd ?_ h) (fun h => absurd h h0)
      exact if_pos (hact h0)

end Manager

end UsbProxy
