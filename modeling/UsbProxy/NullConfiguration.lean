import UsbProxy.DeviceModel
import UsbProxy.GadgetEndpoints

/-!
# Null configurations

`get_configuration` and `get_active_configuration` give a null pointer for a value out of range, and
`start_control_relaying`, `stopEps`, `start_data_relaying` and the host proxy's `setConfig` follow what
they get.  A session is a device model made of a device's answers, `start_control_relaying` and a
sequence of calls of `setConfig` and `stopEps`; `isSome_followed_iff` says in which sessions no null
pointer to a configuration is followed.
-/

namespace UsbProxy

/-! ## What is followed -/

/-- A call on the manager while it relays; `opens` are the outcomes of `open_endpoint` in it. -/
inductive ManagerCall
  | setConfig (index : Byte) (opens : ℕ → Bool)
  | stopEps

/-- How the host proxy's `setConfig` ends for arguments that may be null. -/
def HostProxyGadgetFS.ending (cfgs : ProxyConfig) (opens : ℕ → Bool) : Ending :=
  match cfgs.fsCfg with
  | none => .crashes
  | some fsCfg => (setConfig fsCfg cfgs.hsCfg cfgs.hs opens).2

namespace Manager

/-- The configuration pointers `setConfig` follows with a gadget file system as the host, and how it
ends. -/
def setConfigFollows (m : Manager) (index : Byte) (opens : ℕ → Bool) :
    List (Option Configuration) × Ending :=
  if m.configurationNumber ≠ 0 ∧ m.configurationNumber ≠ index then
    ([m.device.getActiveConfiguration], m.stopEps)
  else
    match (m.setConfig index).2.2 with
    | none => ([], .returns)
    | some cfgs =>
      if HostProxyGadgetFS.ending cfgs opens = .returns then
        ([cfgs.fsCfg, (m.setConfig index).1.device.getActiveConfiguration], (m.setConfig index).2.1)
      else ([cfgs.fsCfg], HostProxyGadgetFS.ending cfgs opens)

/-- The configuration pointers a call follows. -/
def followed (m : Manager) : ManagerCall → List (Option Configuration)
  | .setConfig index opens => (m.setConfigFollows index opens).1
  | .stopEps => [m.device.getActiveConfiguration]

/-- The manager behind a call that comes back. -/
def step (m : Manager) : ManagerCall → Option Manager
  | .setConfig index opens =>
    if (m.setConfigFollows index opens).2 = .returns then some (m.setConfig index).1 else none
  | .stopEps => none

/-- The pointers followed in a session: the active configuration in `start_control_relaying`, then
those of the calls. -/
def sessionFollows (a : DeviceAnswers) (calls : List ManagerCall) : List (Option Configuration) :=
  let m := Manager.new (.ofProxy a)
  m.device.getActiveConfiguration ::
    if m.device.getActiveConfiguration.isSome then (Runs.outputs step followed m calls).flatten else []

end Manager

/-! ## When they are there -/

/-- The table the full-speed argument is looked up in. -/
def Device.fsTable (d : Device) : ConfigurationTable :=
  match d.qualifier with
  | some qualifier => if d.highspeed then qualifier else d.toConfigurationTable
  | none => d.toConfigurationTable

/-- The first nonzero value `setConfig` is called with, before the process is stopped. -/
def firstValue : List ManagerCall → Option (Byte × (ℕ → Bool))
  | [] => none
  | .stopEps :: _ => none
  | .setConfig index opens :: calls => if index = 0 then firstValue calls else some (index, opens)

/-- The loops come to a null object before a file cannot be opened. -/
def MeetsNull (opens : ℕ → Bool) (slots : List (Option EndpointSlot)) : Prop :=
  ∃ k, slots[k]? = some none ∧ ∀ j < k, opens j = true

/-- A value that can be looked up: for the full-speed argument, and for the active configuration unless
the host proxy crashes in between. -/
def Device.InRange (d : Device) (index : Byte) (opens : ℕ → Bool) : Prop :=
  index ≤ d.fsTable.bNumConfigurations ∧
    (index ≤ d.bNumConfigurations ∨
      ∃ c, d.fsTable.getConfiguration index = some c ∧ MeetsNull opens c.endpointSlots)

theorem meetsNull_cons {opens : ℕ → Bool} {s : EndpointSlot} {slots : List (Option EndpointSlot)} :
    MeetsNull opens (some s :: slots) ↔ opens 0 = true ∧ MeetsNull (fun j => opens (j + 1)) slots := by
  constructor
  · rintro ⟨k, hk, hopens⟩
    cases k with
    | zero => cases hk
    | succ k =>
      exact ⟨hopens 0 (Nat.succ_pos k), k, hk, fun j hj => hopens (j + 1) (Nat.succ_lt_succ hj)⟩
  · rintro ⟨h0, k, hk, hopens⟩
    refine ⟨k + 1, hk, fun j hj => ?_⟩
    cases j with
    | zero => exact h0
    | succ j => exact hopens j (Nat.lt_of_succ_lt_succ hj)

namespace HostProxyGadgetFS

theorem writeAll_returns_iff {hsCfg : Option Configuration} {hs : Bool} {opens : ℕ → Bool}
    {slots : List (Option EndpointSlot)} (n : ℕ) :
    (writeAll hsCfg hs opens n slots).2 = .returns ↔ ¬ MeetsNull (fun j => opens (n + j)) slots := by
  induction slots generalizing n with
  | nil => exact iff_of_true rfl fun ⟨k, hk, _⟩ => by cases hk
  | cons slot slots ih =>
    cases slot with
    | none => exact iff_of_false (by simp [writeAll]) fun h => h ⟨0, rfl, fun j hj => by cases hj⟩
    | some s =>
      have hshift : (fun j => opens (n + (j + 1))) = fun j => opens (n + 1 + j) := by
        funext j
        rw [Nat.add_right_comm, Nat.add_assoc]
      rw [meetsNull_cons, hshift, not_and]
      unfold writeAll
      by_cases hopen : opens n = true
      · simp only [if_pos hopen]
        rw [ih (n + 1)]
        exact ⟨fun h _ => h, fun h => h hopen⟩
      · rw [if_neg hopen]
        exact iff_of_true rfl fun h => absurd h hopen

theorem setConfig_returns_iff {fsCfg : Configuration} {hsCfg : Option Configuration} {hs : Bool}
    {opens : ℕ → Bool} :
    (setConfig fsCfg hsCfg hs opens).2 = .returns ↔ ¬ MeetsNull opens fsCfg.endpointSlots := by
  unfold setConfig
  rw [writeAll_returns_iff 0]
  simp only [Nat.zero_add]

theorem ending_returns_iff {cfgs : ProxyConfig} {opens : ℕ → Bool} :
    ending cfgs opens = .returns ↔
      ∃ fsCfg, cfgs.fsCfg = some fsCfg ∧ ¬ MeetsNull opens fsCfg.endpointSlots := by
  unfold ending
  cases cfgs.fsCfg with
  | none => simp
  | some fsCfg => simp only [setConfig_returns_iff, Option.some.injEq, exists_eq_left']

end HostProxyGadgetFS

/-! ## The first value -/

namespace Device

variable {d : Device} {index : Byte}

theorem getActiveConfiguration_set (h0 : index ≠ 0) :
    (d.setActiveConfiguration index).getActiveConfiguration = d.getConfiguration index := by
  have h1 : ¬ index < 1 := UInt8.not_lt.2 (one_le_of_ne_zero h0)
  unfold getActiveConfiguration setActiveConfiguration
  by_cases hgt : d.bNumConfigurations < index
  · simp only [if_pos (show d.bNumConfigurations < index ∨ index < 1 from .inl hgt)]
    unfold ConfigurationTable.getConfiguration
    rw [if_pos (by decide), if_pos (.inl hgt)]
  · simp only [if_neg (not_or.2 ⟨hgt, h1⟩)]
    rw [if_neg (by omega), Int.toNat_natCast, UInt8.ofNat_toNat]

/-- No table of the device has a null entry. -/
structure Full (d : Device) : Prop where
  table : d.toConfigurationTable.Full
  qualifier : ∀ q, d.qualifier = some q → q.Full

theorem Full.fsTable (h : d.Full) : d.fsTable.Full := by
  unfold Device.fsTable
  split
  · split_ifs
    · exact h.qualifier _ ‹_›
    · exact h.table
  · exact h.table

theorem full_ofProxy (a : DeviceAnswers) : (ofProxy a).Full where
  table := ConfigurationTable.full_ofAnswers _ a.configurations_lt
  qualifier q hq := by
    obtain ⟨answer, -, hq⟩ := Option.bind_eq_some_iff.1 hq
    split_ifs at hq
    rw [← Option.some.inj hq]
    exact ConfigurationTable.full_ofAnswers _ answer.configurations_lt

/-- A device model has an active configuration exactly when the device reported one that it has. -/
theorem active_ofProxy_isSome (a : DeviceAnswers) :
    (ofProxy a).getActiveConfiguration.isSome ↔
      a.address ≠ 0 ∧ 1 ≤ a.configuration ∧ a.configuration.toNat ≤ a.configurations.length := by
  have hactive : (ofProxy a).getActiveConfiguration =
      (ofProxy a).getConfiguration (if a.address = 0 then 0 else a.configuration) := by
    unfold getActiveConfiguration
    show (if (if a.address = 0 then (0 : ℤ) else a.configuration.toNat) < 0 then none else _) = _
    by_cases h0 : a.address = 0
    · simp only [ofProxy, if_pos h0]
      rfl
    · simp only [ofProxy, if_neg h0, Int.toNat_natCast, UInt8.ofNat_toNat]
      rw [if_neg (by omega)]
  have hcount : (ofProxy a).bNumConfigurations.toNat = a.configurations.length :=
    UInt8.toNat_ofNat_of_lt' a.configurations_lt
  rw [hactive, (full_ofProxy a).table.getConfiguration_isSome]
  by_cases h0 : a.address = 0
  · rw [if_pos h0]
    exact iff_of_false (fun h => absurd h.1 (by decide)) fun h => h.1 h0
  · rw [if_neg h0, UInt8.le_iff_toNat_le (b := (ofProxy a).bNumConfigurations), hcount]
    exact (and_iff_right h0).symm

end Device

namespace Manager

variable {m : Manager} {index : Byte} {opens : ℕ → Bool}

/-- What setting the first value follows. -/
theorem setConfigFollows_first (h0 : m.configurationNumber = 0) (h : index ≠ 0) (opens : ℕ → Bool) :
    ∃ cfgs : ProxyConfig, cfgs.fsCfg = m.device.fsTable.getConfiguration index ∧
      m.setConfigFollows index opens =
        if HostProxyGadgetFS.ending cfgs opens = .returns then
          ([cfgs.fsCfg, m.device.getConfiguration index], (m.setConfig index).2.1)
        else ([cfgs.fsCfg], HostProxyGadgetFS.ending cfgs opens) := by
  have hne : m.configurationNumber ≠ index := fun he => h (he.symm.trans h0)
  obtain ⟨cfgs, hcfgs, hfsCfg⟩ : ∃ cfgs, (m.setConfig index).2.2 = some cfgs ∧
      cfgs.fsCfg = m.device.fsTable.getConfiguration index := by
    unfold setConfig
    rw [if_neg (fun hc => hc.1 h0), if_neg hne, if_neg h]
    refine ⟨_, rfl, ?_⟩
    unfold Device.fsTable
    show ProxyConfig.fsCfg (match m.device.qualifier with | some _ => _ | none => _) = _
    cases m.device.qualifier with
    | none => rfl
    | some qualifier =>
      show ProxyConfig.fsCfg (if m.device.highspeed = true then _ else _) =
        ConfigurationTable.getConfiguration (if m.device.highspeed = true then _ else _) index
      split_ifs
      · rfl
      · rfl
  refine ⟨cfgs, hfsCfg, ?_⟩
  unfold setConfigFollows
  rw [if_neg (fun hc => hc.1 h0), hcfgs, (setConfig_first h0 h).1,
    Device.getActiveConfiguration_set h]

/-- The first value that is set: the pointers followed are there exactly when it is in range. -/
theorem isSome_followed_first (hfull : m.device.Full) (h0 : m.configurationNumber = 0)
    (h : index ≠ 0) : (∀ p ∈ m.followed (.setConfig index opens), p.isSome) ↔
      m.device.InRange index opens := by
  obtain ⟨cfgs, hfsCfg, hfollows⟩ := setConfigFollows_first h0 h opens
  have h1 : 1 ≤ index := one_le_of_ne_zero h
  have hfs : cfgs.fsCfg.isSome ↔ index ≤ m.device.fsTable.bNumConfigurations := by
    rw [hfsCfg, hfull.fsTable.getConfiguration_isSome index]
    exact and_iff_right h1
  have hactive : (m.device.getConfiguration index).isSome ↔ index ≤ m.device.bNumConfigurations := by
    rw [hfull.table.getConfiguration_isSome index]
    exact and_iff_right h1
  show (∀ p ∈ (m.setConfigFollows index opens).1, p.isSome) ↔ _
  unfold Device.InRange
  rw [hfollows, ← hfs, ← hactive, ← hfsCfg]
  by_cases hend : HostProxyGadgetFS.ending cfgs opens = .returns
  · obtain ⟨fsCfg, hsome, hnull⟩ := HostProxyGadgetFS.ending_returns_iff.1 hend
    rw [if_pos hend]
    simp only [List.forall_mem_cons, List.not_mem_nil, false_imp_iff, implies_true, and_true, hsome,
      Option.some.injEq, exists_eq_left', hnull, or_false]
  · rw [if_neg hend]
    simp only [List.mem_singleton, forall_eq]
    refine ⟨fun hsome => ⟨hsome, .inr ?_⟩, And.left⟩
    obtain ⟨fsCfg, hfsCfg⟩ := Option.isSome_iff_exists.1 hsome
    refine ⟨fsCfg, hfsCfg, by_contra fun hnull => hend ?_⟩
    exact HostProxyGadgetFS.ending_returns_iff.2 ⟨fsCfg, hfsCfg, hnull⟩

theorem step_first {m' : Manager} (h0 : m.configurationNumber = 0) (h : index ≠ 0)
    (hstep : m.step (.setConfig index opens) = some m') :
    m'.configurationNumber = index ∧
      m'.device.getActiveConfiguration ∈ m.followed (.setConfig index opens) := by
  obtain ⟨cfgs, -, hfollows⟩ := setConfigFollows_first h0 h opens
  simp only [step] at hstep
  split_ifs at hstep with hend
  obtain rfl := Option.some.inj hstep
  rw [(setConfig_first h0 h).1, Device.getActiveConfiguration_set h]
  refine ⟨rfl, ?_⟩
  show _ ∈ (m.setConfigFollows index opens).1
  rw [hfollows] at hend ⊢
  split_ifs at hend ⊢ with hhost
  · exact List.mem_cons_of_mem _ (List.mem_singleton_self _)
  · exact absurd hend hhost

/-- With a configuration set there is nothing but the active one to follow, and it stays. -/
theorem followed_configured (h0 : m.configurationNumber ≠ 0) (call : ManagerCall) :
    (∀ p ∈ m.followed call, p = m.device.getActiveConfiguration) ∧
      ∀ m', m.step call = some m' → m' = m := by
  cases call with
  | stopEps => exact ⟨fun p hp => List.mem_singleton.1 hp, fun m' hm' => by cases hm'⟩
  | setConfig index opens =>
    by_cases hsame : m.configurationNumber = index
    · have hno : ¬ (m.configurationNumber ≠ 0 ∧ m.configurationNumber ≠ index) :=
        fun hc => hc.2 hsame
      have hquiet : m.setConfigFollows index opens = ([], .returns) := by
        unfold setConfigFollows
        rw [if_neg hno, setConfig_same hsame]
      constructor
      · intro p hp
        simp only [followed, hquiet] at hp
        cases hp
      · intro m' hm'
        simp only [step, hquiet, setConfig_same hsame, if_true] at hm'
        exact (Option.some.inj hm').symm
    · have hends : m.stopEps ≠ .returns := by
        unfold stopEps
        split_ifs <;> simp
      have hstop : m.setConfigFollows index opens = ([m.device.getActiveConfiguration], m.stopEps) :=
        if_pos ⟨h0, hsame⟩
      constructor
      · intro p hp
        simp only [followed, hstop] at hp
        exact List.mem_singleton.1 hp
      · intro m' hm'
        simp only [step, hstop, if_neg hends] at hm'
        cases hm'

theorem outputs_configured (h0 : m.configurationNumber ≠ 0) (calls : List ManagerCall) :
    ∀ ps ∈ Runs.outputs step followed m calls, ∀ p ∈ ps, p = m.device.getActiveConfiguration := by
  induction calls with
  | nil => exact fun ps hps => absurd hps List.not_mem_nil
  | cons call calls ih =>
    obtain ⟨hfollowed, hstay⟩ := followed_configured h0 call
    unfold Runs.outputs
    intro ps hps
    rcases List.mem_cons.1 hps with rfl | hps
    · exact hfollowed
    · cases hstep : m.step call with
      | none => simp [hstep] at hps
      | some m' =>
        obtain rfl := hstay m' hstep
        rw [hstep] at hps
        exact ih ps hps

/-- What a manager without a configuration follows is there exactly when the first value is in
range. -/
theorem isSome_outputs_iff (hfull : m.device.Full) (h0 : m.configurationNumber = 0)
    (hactive : m.device.getActiveConfiguration.isSome) (calls : List ManagerCall) :
    (∀ ps ∈ Runs.outputs step followed m calls, ∀ p ∈ ps, p.isSome) ↔
      ∀ index opens, firstValue calls = some (index, opens) → m.device.InRange index opens := by
  induction calls with
  | nil => exact iff_of_true (fun ps hps => absurd hps List.not_mem_nil) fun _ _ h => by cases h
  | cons call calls ih =>
    unfold Runs.outputs
    rw [List.forall_mem_cons]
    cases call with
    | stopEps =>
      refine iff_of_true ⟨fun p hp => ?_, fun ps hps => by cases hps⟩ fun _ _ h => by cases h
      rw [List.mem_singleton.1 hp]
      exact hactive
    | setConfig index opens =>
      by_cases hindex : index = 0
      · have hsame : m.configurationNumber = index := h0.trans hindex.symm
        have hquiet : m.setConfigFollows index opens = ([], .returns) := by
          unfold setConfigFollows
          rw [if_neg (fun hc => hc.1 h0), setConfig_same hsame]
        have hfirst : firstValue (.setConfig index opens :: calls) = firstValue calls := if_pos hindex
        simp only [followed, step, hquiet, setConfig_same hsame, if_true, hfirst, ih]
        exact and_iff_right fun p hp => by cases hp
      · have hfirst : firstValue (.setConfig index opens :: calls) = some (index, opens) :=
          if_neg hindex
        rw [isSome_followed_first hfull h0 hindex, hfirst]
        constructor
        · rintro ⟨hrange, -⟩ index' opens' heq
          cases heq
          exact hrange
        · intro hrange
          have hin := hrange index opens rfl
          refine ⟨hin, fun ps hps p hp => ?_⟩
          cases hstep : m.step (.setConfig index opens) with
          | none => simp [hstep] at hps
          | some m' =>
            rw [hstep] at hps
            obtain ⟨hnumber, hmem⟩ := step_first h0 hindex hstep
            rw [outputs_configured (by rw [hnumber]; exact hindex) calls ps hps p hp]
            exact (isSome_followed_first hfull h0 hindex).2 hin _ hmem

end Manager

/-- The values a session has to have: GET_CONFIGURATION names a configuration, and so does the first
nonzero value that is set. -/
structure DeviceAnswers.InRange (a : DeviceAnswers) (calls : List ManagerCall) : Prop where
  address : a.address ≠ 0
  configuration : 1 ≤ a.configuration ∧ a.configuration.toNat ≤ a.configurations.length
  firstValue : ∀ index opens, firstValue calls = some (index, opens) →
    (Device.ofProxy a).InRange index opens

/-- **No null configuration.**  In a session no null pointer to a configuration is followed exactly when
the device has an address and a configuration of its own to begin with and the first value that is set
can be looked up. -/
theorem isSome_followed_iff (a : DeviceAnswers) (calls : List ManagerCall) :
    (∀ p ∈ Manager.sessionFollows a calls, p.isSome) ↔ a.InRange calls := by
  have hactive := Device.active_ofProxy_isSome a
  have hiff := Manager.isSome_outputs_iff (m := .new (.ofProxy a)) (Device.full_ofProxy a) rfl
  unfold Manager.sessionFollows
  rw [List.forall_mem_cons]
  constructor
  · rintro ⟨hfirst, hrest⟩
    obtain ⟨haddress, hconfiguration⟩ := hactive.1 hfirst
    rw [if_pos hfirst] at hrest
    refine ⟨haddress, hconfiguration, (hiff hfirst calls).1 ?_⟩
    exact fun ps hps p hp => hrest p (List.mem_flatten.2 ⟨ps, hps, hp⟩)
  · intro h
    have hfirst : (Manager.new (.ofProxy a)).device.getActiveConfiguration.isSome :=
      hactive.2 ⟨h.address, h.configuration⟩
    refine ⟨hfirst, fun p hp => ?_⟩
    rw [if_pos hfirst] at hp
    obtain ⟨ps, hps, hp⟩ := List.mem_flatten.1 hp
    exact (hiff hfirst calls).2 h.firstValue ps hps p hp

/-- A device with one configuration that no host has configured yet. -/
def unconfigured : DeviceAnswers where
  configurations := [valued 1]
  configurations_lt := by decide
  qualifier := none
  address := 5
  configuration := 0
  highspeed := false

/-- `start_control_relaying` asks for the interfaces of its active configuration. -/
theorem not_isSome_followed_unconfigured :
    ¬ ∀ (a : DeviceAnswers) (calls : List ManagerCall), ∀ p ∈ Manager.sessionFollows a calls,
      p.isSome := by
  intro h
  have hnull : (Device.ofProxy unconfigured).getActiveConfiguration.isSome = true :=
    h unconfigured [] _ (.head _)
  exact absurd hnull (by decide)

end UsbProxy
