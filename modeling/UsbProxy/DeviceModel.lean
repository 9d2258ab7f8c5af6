import UsbProxy.Library.Runs
import UsbProxy.Library.Slots
import UsbProxy.Manager

/-!
# The configurations of a device model

`Device(DeviceProxy*)` files a configuration under the index it was read with, `add_configuration` under
its value minus one, and `get_configuration` looks under the value minus one.  A table is filed when the
conventions coincide on it; `looksUp_iff` says that nothing less will do.

`add_configuration` deletes what it replaces, so a configuration is known by the pointer to it there, and
`made` says what object each is of.
-/

namespace UsbProxy

open Slots

/-! ## From a device's answers -/

namespace ConfigurationTable

/-- The array the constructors fill from index 0 on. -/
def ofAnswers (configurations : List Configuration) (h : configurations.length < 256) :
    ConfigurationTable where
  bNumConfigurations := UInt8.ofNat configurations.length
  configurations := configurations.map some
  configurations_length := by rw [List.length_map, UInt8.toNat_ofNat_of_lt' h]

variable {t : ConfigurationTable}

theorem getConfiguration_of_mem {v : Byte} (h1 : 1 ≤ v) (h : v ≤ t.bNumConfigurations) :
    ∃ hlt : v.toNat - 1 < t.configurations.length,
      t.getConfiguration v = t.configurations[v.toNat - 1] := by
  have h1' : (1 : ℕ) ≤ v.toNat := UInt8.le_iff_toNat_le.1 h1
  have h' := UInt8.le_iff_toNat_le.1 h
  have hlt : v.toNat - 1 < t.configurations.length := by
    rw [t.configurations_length]
    omega
  have hrange : ¬ (t.bNumConfigurations < v ∨ v < 1) :=
    not_or.2 ⟨UInt8.not_lt.2 h, UInt8.not_lt.2 h1⟩
  refine ⟨hlt, ?_⟩
  unfold getConfiguration
  rw [if_neg hrange, List.getElem?_eq_getElem hlt, Option.join_some]

theorem range_of_getConfiguration {v : Byte} {c : Configuration} (h : t.getConfiguration v = some c) :
    1 ≤ v ∧ v ≤ t.bNumConfigurations := by
  unfold getConfiguration at h
  split_ifs at h with hrange
  obtain ⟨hle, h1⟩ := not_or.1 hrange
  exact ⟨UInt8.not_lt.1 h1, UInt8.not_lt.1 hle⟩

/-- No entry of the array is null. -/
def Full (t : ConfigurationTable) : Prop := none ∉ t.configurations

theorem full_ofAnswers (configurations : List Configuration) (h : configurations.length < 256) :
    (ofAnswers configurations h).Full := by
  show none ∉ configurations.map some
  simp

theorem Full.getConfiguration_isSome (h : t.Full) (v : Byte) :
    (t.getConfiguration v).isSome ↔ 1 ≤ v ∧ v ≤ t.bNumConfigurations := by
  constructor
  · intro hsome
    obtain ⟨c, hc⟩ := Option.isSome_iff_exists.1 hsome
    exact range_of_getConfiguration hc
  · rintro ⟨h1, hle⟩
    obtain ⟨hlt, hget⟩ := getConfiguration_of_mem h1 hle
    rw [hget, Option.isSome_iff_ne_none]
    exact fun hnone => h (hnone ▸ List.getElem_mem hlt)

end ConfigurationTable

/-- What a device answers to GET_DESCRIPTOR for its qualifier. -/
structure QualifierAnswer where
  bLength : Byte
  /-- The objects made of its other-speed configurations. -/
  configurations : List Configuration
  configurations_lt : configurations.length < 256

/-- What `Device(DeviceProxy*)` gets to know about a device, string descriptors left out. -/
structure DeviceAnswers where
  /-- The objects made of its configurations, by descriptor index. -/
  configurations : List Configuration
  configurations_lt : configurations.length < 256
  /-- `none` when the request fails. -/
  qualifier : Option QualifierAnswer
  address : Byte
  /-- The answer to GET_CONFIGURATION. -/
  configuration : Byte
  highspeed : Bool

/-- A qualifier whose descriptor has no length is deleted again. -/
def DeviceAnswers.qualifierTable (a : DeviceAnswers) : Option ConfigurationTable :=
  a.qualifier.bind fun q =>
    if q.bLength = 0 then none else some (.ofAnswers q.configurations q.configurations_lt)

/-- `Device(DeviceProxy*)`. -/
def Device.ofProxy (a : DeviceAnswers) : Device where
  toConfigurationTable := .ofAnswers a.configurations a.configurations_lt
  deviceConfigurationIndex := if a.address = 0 then 0 else a.configuration.toNat
  qualifier := a.qualifierTable
  highspeed := a.highspeed

/-- `add_configuration` of an object that the table does not have, on the objects; a store in front of
the array is not followed. -/
def ConfigurationTable.addConfiguration (t : ConfigurationTable) (config : Configuration) :
    ConfigurationTable :=
  let value := config.descriptor.bConfigurationValue
  if t.bNumConfigurations < value ∨ value = 0 then t
  else
    { t with
      configurations := t.configurations.set (value.toNat - 1) (some config)
      configurations_length := by rw [List.length_set]; exact t.configurations_length }

/-! ## Filing by value -/

/-- The configurations of a device with the pointers to them, and those it deleted. -/
structure ConfigurationTableObject where
  bNumConfigurations : Byte
  configurations : List (Option ℕ)
  deleted : List ℕ
  configurations_length : configurations.length = bNumConfigurations.toNat

variable (made : ℕ → Configuration)

/-- `get_descriptor()->bConfigurationValue`. -/
def configurationValue (p : ℕ) : Byte := (made p).descriptor.bConfigurationValue

namespace ConfigurationTableObject

/-- What a constructor leaves. -/
def ofPointers (configurations : List (Option ℕ)) (h : configurations.length < 256) :
    ConfigurationTableObject where
  bNumConfigurations := UInt8.ofNat configurations.length
  configurations := configurations
  deleted := []
  configurations_length := (UInt8.toNat_ofNat_of_lt' h).symm

/-- `configurations[index]=config`. -/
def store (t : ConfigurationTableObject) (index : ℕ) (config : ℕ) : ConfigurationTableObject :=
  { t with
    configurations := t.configurations.set index (some config)
    configurations_length := by rw [List.length_set]; exact t.configurations_length }

/-- `add_configuration`; `none` where an access is outside of the array, a deleted object is asked for
its descriptor or one is deleted again. -/
def addConfiguration (t : ConfigurationTableObject) (config : ℕ) : Option ConfigurationTableObject :=
  let value := configurationValue made config
  if config ∈ t.deleted then none
  else if t.bNumConfigurations < value then some t
  else if value = 0 then none
  else
    match slot t.configurations (value.toNat - 1) with
    | none => some (t.store (value.toNat - 1) config)
    | some q =>
      if q ∈ t.deleted then none
      else some { t.store (value.toNat - 1) config with deleted := q :: t.deleted }

/-- The pointer `get_configuration` returns, which is not followed. -/
def getConfiguration (t : ConfigurationTableObject) (index : Byte) : Option ℕ :=
  if t.bNumConfigurations < index ∨ index < 1 then none
  else slot t.configurations (index.toNat - 1)

/-- Some entry has this value. -/
def Holds (t : ConfigurationTableObject) (v : Byte) : Prop :=
  ∃ p, some p ∈ t.configurations ∧ p ∉ t.deleted ∧ configurationValue made p = v

/-- The lookup finds a configuration with the value if there is one, and nothing else. -/
def LooksUp (t : ConfigurationTableObject) : Prop :=
  ∀ v, (t.Holds made v → ∃ p, t.getConfiguration v = some p ∧ p ∉ t.deleted ∧
      configurationValue made p = v) ∧
    (¬ t.Holds made v → t.getConfiguration v = none)

/-- Every entry stands at its value minus one, and none is deleted. -/
def Filed (t : ConfigurationTableObject) : Prop :=
  ∀ index p, slot t.configurations index = some p →
    (configurationValue made p).toNat = index + 1 ∧ p ∉ t.deleted

def table (t : ConfigurationTableObject) : ConfigurationTable where
  bNumConfigurations := t.bNumConfigurations
  configurations := t.configurations.map (Option.map made)
  configurations_length := by rw [List.length_map]; exact t.configurations_length

variable {made} {t t' : ConfigurationTableObject} {p q : ℕ}

theorem lt_of_slot {index : ℕ} (h : slot t.configurations index = some p) :
    index < t.bNumConfigurations.toNat := by
  rw [← t.configurations_length]
  by_contra hge
  rw [slot_eq_none_of_le (Nat.le_of_not_lt hge)] at h
  cases h

theorem getConfiguration_eq {index : ℕ} (h : index < t.bNumConfigurations.toNat) {v : Byte}
    (hv : v.toNat = index + 1) : t.getConfiguration v = slot t.configurations index := by
  have hrange : ¬ (t.bNumConfigurations < v ∨ v < 1) :=
    not_or.2 ⟨UInt8.not_lt.2 (UInt8.le_iff_toNat_le.2 (by omega)),
      UInt8.not_lt.2 (UInt8.le_iff_toNat_le.2 (by rw [hv]; exact Nat.le_add_left 1 index))⟩
  rw [getConfiguration, if_neg hrange, hv, Nat.add_sub_cancel]

theorem slot_of_getConfiguration {v : Byte} (h : t.getConfiguration v = some p) :
    ∃ index, v.toNat = index + 1 ∧ slot t.configurations index = some p := by
  unfold getConfiguration at h
  split_ifs at h with hrange
  have h1 : (1 : ℕ) ≤ v.toNat := UInt8.le_iff_toNat_le.1 (UInt8.not_lt.1 (not_or.1 hrange).2)
  exact ⟨v.toNat - 1, by omega, h⟩

/-- Looking up by value works exactly on the tables that are filed. -/
theorem looksUp_iff : t.LooksUp made ↔ t.Filed made := by
  constructor
  · intro h index p hp
    have hlt := lt_of_slot hp
    have hbyte := t.bNumConfigurations.toNat_lt
    have hv : (UInt8.ofNat (index + 1)).toNat = index + 1 :=
      UInt8.toNat_ofNat_of_lt' (by show _ < 256; omega)
    have hget := (getConfiguration_eq hlt hv).trans hp
    by_cases hholds : t.Holds made (UInt8.ofNat (index + 1))
    · obtain ⟨p', hp', hlive, hvalue⟩ := (h _).1 hholds
      obtain rfl := Option.some.inj (hget.symm.trans hp')
      exact ⟨by rw [hvalue, hv], hlive⟩
    · cases hget.symm.trans ((h _).2 hholds)
  · intro h v
    constructor
    · rintro ⟨p, hmem, hlive, rfl⟩
      obtain ⟨index, hp⟩ := mem_iff_exists_slot.1 hmem
      exact ⟨p, (getConfiguration_eq (lt_of_slot hp) (h index p hp).1).trans hp, hlive, rfl⟩
    · intro hnot
      cases hget : t.getConfiguration v with
      | none => rfl
      | some p =>
        obtain ⟨index, hv, hp⟩ := slot_of_getConfiguration hget
        obtain ⟨hvalue, hlive⟩ := h index p hp
        exact absurd ⟨p, mem_iff_exists_slot.2 ⟨index, hp⟩, hlive,
          UInt8.toNat_inj.1 (hvalue.trans hv.symm)⟩ hnot

/-- A call that gets through does on the objects what `ConfigurationTable.addConfiguration` does. -/
theorem table_addConfiguration (h : t.addConfiguration made p = some t') :
    t'.table made = (t.table made).addConfiguration (made p) := by
  have hstore : ∀ deleted, ¬ t.bNumConfigurations < configurationValue made p →
      configurationValue made p ≠ 0 →
      ({ t.store ((configurationValue made p).toNat - 1) p with deleted } :
        ConfigurationTableObject).table made = (t.table made).addConfiguration (made p) := by
    intro deleted hle h0
    unfold ConfigurationTable.addConfiguration
    dsimp only
    rw [if_neg (show ¬ ((t.table made).bNumConfigurations < (made p).descriptor.bConfigurationValue ∨
      (made p).descriptor.bConfigurationValue = 0) from not_or.2 ⟨hle, h0⟩)]
    simp only [table, store, List.map_set, Option.map_some]
    rfl
  unfold addConfiguration at h
  dsimp only at h
  split_ifs at h with hdel hgt h0
  · obtain rfl := Option.some.inj h
    exact (if_pos (.inl hgt)).symm
  · cases hslot : slot t.configurations ((configurationValue made p).toNat - 1) with
    | none =>
      rw [hslot] at h
      obtain rfl := Option.some.inj h
      exact hstore t.deleted hgt h0
    | some q =>
      rw [hslot] at h
      dsimp only at h
      split_ifs at h
      obtain rfl := Option.some.inj h
      exact hstore (q :: t.deleted) hgt h0

theorem getConfiguration_table (t : ConfigurationTableObject) (v : Byte) :
    (t.table made).getConfiguration v = (t.getConfiguration v).map made := by
  unfold ConfigurationTable.getConfiguration getConfiguration slot
  by_cases hrange : t.bNumConfigurations < v ∨ v < 1
  · rw [if_pos hrange]
    exact if_pos hrange
  · rw [if_neg hrange]
    refine (if_neg hrange).trans ?_
    show ((t.configurations.map (Option.map made))[v.toNat - 1]?).join = _
    rw [List.getElem?_map]
    cases t.configurations[v.toNat - 1]? <;> rfl

/-! ## One call -/

/-- The table has the object, or had it. -/
def Known (t : ConfigurationTableObject) (p : ℕ) : Prop := some p ∈ t.configurations ∨ p ∈ t.deleted

theorem addConfiguration_cases (h : t.addConfiguration made p = some t') :
    p ∉ t.deleted ∧ (t.bNumConfigurations < configurationValue made p ∧ t' = t ∨
      configurationValue made p ≤ t.bNumConfigurations ∧ configurationValue made p ≠ 0 ∧
        t'.bNumConfigurations = t.bNumConfigurations ∧
        t'.configurations =
          t.configurations.set ((configurationValue made p).toNat - 1) (some p) ∧
        t'.deleted = (slot t.configurations ((configurationValue made p).toNat - 1)).toList ++
          t.deleted) := by
  unfold addConfiguration at h
  dsimp only at h
  split_ifs at h with hdel hgt h0
  · exact ⟨hdel, .inl ⟨hgt, (Option.some.inj h).symm⟩⟩
  · refine ⟨hdel, .inr ⟨UInt8.not_lt.1 hgt, h0, ?_⟩⟩
    cases hslot : slot t.configurations ((configurationValue made p).toNat - 1) with
    | none =>
      rw [hslot] at h
      obtain rfl := Option.some.inj h
      exact ⟨rfl, rfl, rfl⟩
    | some q =>
      rw [hslot] at h
      dsimp only at h
      split_ifs at h
      obtain rfl := Option.some.inj h
      exact ⟨rfl, rfl, rfl⟩

/-- On a filed table a call gets through unless the value is 0 or the object is deleted. -/
theorem Filed.exists_addConfiguration (h : t.Filed made) (h0 : configurationValue made p ≠ 0)
    (hdel : p ∉ t.deleted) : ∃ t', t.addConfiguration made p = some t' := by
  unfold addConfiguration
  dsimp only
  rw [if_neg hdel, if_neg h0]
  split_ifs with hgt
  · exact ⟨t, rfl⟩
  · cases hslot : slot t.configurations ((configurationValue made p).toNat - 1) with
    | none => exact ⟨_, rfl⟩
    | some q => exact ⟨_, if_neg (h _ q hslot).2⟩

section Step

variable (h : t.Filed made) (hadd : t.addConfiguration made p = some t')

include h hadd

theorem known_addConfiguration : t'.Known q ↔
    t.Known q ∨ q = p ∧ configurationValue made p ≤ t.bNumConfigurations := by
  obtain ⟨-, ⟨hgt, rfl⟩ | ⟨hle, h0, -, hconf, hdel⟩⟩ := addConfiguration_cases hadd
  · rw [or_iff_left fun hq => UInt8.not_le.2 hgt hq.2]
  · have hpos := one_le_toNat h0
    have hlen : (configurationValue made p).toNat - 1 < t.configurations.length := by
      have := UInt8.le_iff_toNat_le.1 hle
      rw [t.configurations_length]
      omega
    unfold Known
    rw [hconf, hdel, List.mem_append, Option.mem_toList, mem_iff_exists_slot, mem_iff_exists_slot]
    constructor
    · rintro (⟨k, hk⟩ | hold | hq)
      · by_cases he : k = (configurationValue made p).toNat - 1
        · rw [he, slot_set_self hlen] at hk
          exact .inr ⟨(Option.some.inj hk).symm, hle⟩
        · rw [slot_set_ne he] at hk
          exact .inl (.inl ⟨k, hk⟩)
      · exact .inl (.inl ⟨_, hold⟩)
      · exact .inl (.inr hq)
    · rintro ((⟨k, hk⟩ | hq) | ⟨rfl, -⟩)
      · by_cases he : k = (configurationValue made p).toNat - 1
        · exact .inr (.inl (he ▸ hk))
        · exact .inl ⟨k, by rw [slot_set_ne he, hk]⟩
      · exact .inr (.inr hq)
      · exact .inl ⟨_, slot_set_self hlen _⟩

/-- The table stays filed exactly when it did not know the object. -/
theorem filed_addConfiguration_iff : t'.Filed made ↔ ¬ t.Known p := by
  obtain ⟨hlive, ⟨hgt, rfl⟩ | ⟨hle, h0, -, hconf, hdel⟩⟩ := addConfiguration_cases hadd
  · refine iff_of_true h (not_or.2 ⟨fun hmem => ?_, hlive⟩)
    obtain ⟨k, hk⟩ := mem_iff_exists_slot.1 hmem
    have := lt_of_slot hk
    have := (h k p hk).1
    have := UInt8.lt_iff_toNat_lt.1 hgt
    omega
  · have hpos := one_le_toNat h0
    have hlen : (configurationValue made p).toNat - 1 < t.configurations.length := by
      have := UInt8.le_iff_toNat_le.1 hle
      rw [t.configurations_length]
      omega
    constructor
    · rintro hfiled (hmem | hdel')
      · -- It stood in its slot, so this call has deleted it there.
        obtain ⟨k, hk⟩ := mem_iff_exists_slot.1 hmem
        have hk' : k = (configurationValue made p).toNat - 1 := by
          have := (h k p hk).1
          omega
        refine (hfiled _ p (by rw [hconf]; exact slot_set_self hlen _)).2 ?_
        rw [hdel, ← hk', hk]
        exact List.mem_cons_self ..
      · exact hlive hdel'
    · intro hnew k q hq
      rw [hconf] at hq
      have hdeleted : ∀ r, r ∈ t'.deleted →
          slot t.configurations ((configurationValue made p).toNat - 1) = some r ∨ r ∈ t.deleted := by
        intro r hr
        rwa [hdel, List.mem_append, Option.mem_toList] at hr
      by_cases he : k = (configurationValue made p).toNat - 1
      · rw [he, slot_set_self hlen] at hq
        obtain rfl := Option.some.inj hq
        refine ⟨by omega, fun hmem => hnew ?_⟩
        rcases hdeleted p hmem with hold | hold
        · exact .inl (mem_iff_exists_slot.2 ⟨_, hold⟩)
        · exact .inr hold
      · rw [slot_set_ne he] at hq
        obtain ⟨hvalue, hqlive⟩ := h k q hq
        refine ⟨hvalue, fun hmem => ?_⟩
        rcases hdeleted q hmem with hold | hold
        · have := (h _ q hold).1
          omega
        · exact hqlive hold

end Step

/-- One call is right when it gets through and looking up by value works behind it. -/
theorem looksUp_addConfiguration_iff (h : t.Filed made) :
    (∃ t', t.addConfiguration made p = some t' ∧ t'.LooksUp made) ↔
      configurationValue made p ≠ 0 ∧ ¬ t.Known p := by
  constructor
  · rintro ⟨t', hadd, hlook⟩
    refine ⟨fun h0 => ?_, (filed_addConfiguration_iff h hadd).1 (looksUp_iff.1 hlook)⟩
    obtain ⟨-, ⟨hgt, -⟩ | ⟨-, hne, -⟩⟩ := addConfiguration_cases hadd
    · rw [h0] at hgt
      exact Nat.not_lt_zero _ (UInt8.lt_iff_toNat_lt.1 hgt)
    · exact hne h0
  · rintro ⟨h0, hnew⟩
    obtain ⟨t', hadd⟩ := h.exists_addConfiguration h0 (not_or.1 hnew).2
    exact ⟨t', hadd, looksUp_iff.2 ((filed_addConfiguration_iff h hadd).2 hnew)⟩

/-! ## All calls -/

theorem bNumConfigurations_addConfiguration (hadd : t.addConfiguration made p = some t') :
    t'.bNumConfigurations = t.bNumConfigurations := by
  obtain ⟨-, ⟨-, rfl⟩ | ⟨-, -, hnum, -⟩⟩ := addConfiguration_cases hadd
  · rfl
  · exact hnum

/-- Every call finds an object the table does not know, exactly when it does not know them to begin with
and none comes twice. -/
theorem along_iff (h : t.Filed made) (calls : List ℕ) :
    Runs.Along (addConfiguration made) (fun t p => configurationValue made p ≠ 0 ∧ ¬ t.Known p) t calls ↔
      (∀ p ∈ calls, configurationValue made p ≠ 0 ∧ ¬ t.Known p) ∧
        (calls.filter fun p => configurationValue made p ≤ t.bNumConfigurations).Nodup := by
  induction calls generalizing t with
  | nil => exact iff_of_true trivial ⟨fun p hp => absurd hp List.not_mem_nil, List.nodup_nil⟩
  | cons p ps ih =>
    rw [Runs.Along, List.forall_mem_cons]
    refine (and_congr_right fun hp => ?_).trans and_assoc.symm
    obtain ⟨t', hadd, hlook⟩ := (looksUp_addConfiguration_iff h).2 hp
    have honly : (∀ u, t.addConfiguration made p = some u → Runs.Along (addConfiguration made)
        (fun t p => configurationValue made p ≠ 0 ∧ ¬ t.Known p) u ps) ↔
        Runs.Along (addConfiguration made)
          (fun t p => configurationValue made p ≠ 0 ∧ ¬ t.Known p) t' ps :=
      ⟨fun hall => hall t' hadd, fun ht' u hu => Option.some.inj (hadd.symm.trans hu) ▸ ht'⟩
    rw [honly, ih (looksUp_iff.1 hlook), bNumConfigurations_addConfiguration hadd]
    have hknown : ∀ q, t'.Known q ↔
        t.Known q ∨ q = p ∧ configurationValue made p ≤ t.bNumConfigurations :=
      fun q => known_addConfiguration h hadd
    by_cases hle : configurationValue made p ≤ t.bNumConfigurations
    · rw [List.filter_cons_of_pos (by simpa using hle), List.nodup_cons, ← and_assoc]
      refine and_congr_left fun _ => ⟨fun hall => ⟨fun q hq => ?_, fun hmem => ?_⟩, ?_⟩
      · exact ⟨(hall q hq).1, fun hk => (hall q hq).2 ((hknown q).2 (.inl hk))⟩
      · exact (hall p (List.mem_filter.1 hmem).1).2 ((hknown p).2 (.inr ⟨rfl, hle⟩))
      · rintro ⟨hall, hnot⟩ q hq
        refine ⟨(hall q hq).1, fun hk => ?_⟩
        rcases (hknown q).1 hk with hk | ⟨rfl, -⟩
        · exact (hall q hq).2 hk
        · exact hnot (List.mem_filter.2 ⟨hq, by simpa using hle⟩)
    · rw [List.filter_cons_of_neg (by simpa using hle)]
      refine and_congr_left fun _ => forall_congr' fun q => imp_congr_right fun _ =>
        and_congr_right fun _ => not_congr ?_
      rw [hknown]
      exact or_iff_left fun hq => hle hq.2

/-- What a device has to number its configurations with. -/
theorem filed_ofPointers_iff {configurations : List (Option ℕ)} {h : configurations.length < 256} :
    (ofPointers configurations h).Filed made ↔ ∀ index p, configurations[index]? = some (some p) →
      (configurationValue made p).toNat = index + 1 := by
  refine forall_congr' fun index => forall_congr' fun p => ?_
  show (slot configurations index = some p → _ ∧ p ∉ []) ↔ _
  rw [slot, Option.join_eq_some_iff]
  simp

variable (made) in
/-- **Lookups by value.**  Before and behind every one of a sequence of `add_configuration` calls looking
up by value works, and every call gets through, exactly when the table is filed to begin with, no call
has a configuration with the value 0 or one of the table, and none of those that are not turned down
comes twice. -/
theorem looksUp_run_iff (configurations : List (Option ℕ)) (h : configurations.length < 256)
    (calls : List ℕ) :
    ((ofPointers configurations h).LooksUp made ∧
      ∀ e ∈ Runs.outputs (addConfiguration made) (addConfiguration made) (ofPointers configurations h)
        calls, ∃ t, e = some t ∧ t.LooksUp made) ↔
      (∀ index p, configurations[index]? = some (some p) →
        (configurationValue made p).toNat = index + 1) ∧
      (∀ p ∈ calls, configurationValue made p ≠ 0 ∧ some p ∉ configurations) ∧
      (calls.filter fun p => configurationValue made p ≤ UInt8.ofNat configurations.length).Nodup := by
  rw [looksUp_iff, ← filed_ofPointers_iff (h := h)]
  refine and_congr_right fun hfiled => ?_
  have hknown : ∀ p, (ofPointers configurations h).Known p ↔ some p ∈ configurations := fun p =>
    or_iff_left List.not_mem_nil
  have halong := along_iff hfiled calls
  simp only [hknown] at halong
  refine Iff.trans ?_ halong
  refine Runs.outputs_forall_iff (R := fun e => ∃ t, e = some t ∧ LooksUp made t) (Filed made)
    (fun t p t' hadd hp hfiled => ?_) (fun t p hfiled => looksUp_addConfiguration_iff hfiled) hfiled calls
  exact (filed_addConfiguration_iff hfiled hadd).2 hp.2

end ConfigurationTableObject

/-- A configuration with a value and without interfaces. -/
def valued (bConfigurationValue : Byte) : Configuration :=
  .new { bLength := 9, bDescriptorType := 2, wTotalLength := 9, bNumInterfaces := 0, bConfigurationValue
         iConfiguration := 0, bmAttributes := 0x80, bMaxPower := 50 }

/-- An object for each value. -/
def numbered (p : ℕ) : Configuration := valued (UInt8.ofNat p)

/-- The configuration with the value 2 takes the empty slot, the one with the value 5 is turned down twice. -/
theorem ConfigurationTableObject.looksUp_run_iff_numbered :
    (ofPointers [some 1, none] (by decide)).LooksUp numbered ∧
      ∀ e ∈ Runs.outputs (addConfiguration numbered) (addConfiguration numbered)
        (ofPointers [some 1, none] (by decide)) [5, 2, 5], ∃ t, e = some t ∧ t.LooksUp numbered := by
  refine (looksUp_run_iff numbered [some 1, none] (by decide) [5, 2, 5]).2 ⟨fun index p h => ?_, ?_⟩
  · rcases index with _ | _ | index <;> cases h
    rfl
  · decide

/-- A device may give its only configuration the value 2, a configuration may have the value 0, and one
that is added again is deleted in the table. -/
theorem ConfigurationTableObject.not_looksUp_valued :
    (¬ ∀ (made : ℕ → Configuration) (configurations : List ℕ)
      (h : (configurations.map some).length < 256) (calls : List ℕ),
      (configurations.map (configurationValue made)).Nodup →
      (∀ p ∈ configurations, configurationValue made p ≠ 0) →
        (ofPointers (configurations.map some) h).LooksUp made ∧
          ∀ e ∈ Runs.outputs (addConfiguration made) (addConfiguration made)
            (ofPointers (configurations.map some) h) calls, ∃ t, e = some t ∧ t.LooksUp made) ∧
      (addConfiguration numbered (ofPointers [some 1] (by decide)) 0 = none) ∧
      ∃ t, Runs.run (addConfiguration numbered) (ofPointers [none] (by decide)) [1, 1] = some t ∧
        ¬ t.LooksUp numbered := by
  refine ⟨fun h => ?_, rfl, _, rfl, fun h => ?_⟩
  · obtain ⟨hlook, -⟩ := h numbered [2] (by decide) [] (List.pairwise_singleton _ _) (by decide)
    obtain ⟨hvalue, -⟩ := looksUp_iff.1 hlook 0 2 rfl
    exact absurd hvalue (by decide)
  · exact (looksUp_iff.1 h 0 1 rfl).2 (List.mem_cons_self ..)

end UsbProxy
