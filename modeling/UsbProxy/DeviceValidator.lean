import UsbProxy.DeviceModel
import UsbProxy.GuardedValidators
import UsbProxy.StringOwnership
import UsbProxy.ValidConfiguration

/-!
# The validator of a device

`Device::is_defined` goes through the descriptor, the configurations, string zero, every string the
descriptors refer to and the qualifier, with every array access and every pointer where the source has
them.
-/

namespace UsbProxy

open KeyedRows Guarded

def USB_DT_DEVICE : Byte := 1

def USB_DT_DEVICE_QUALIFIER : Byte := 6

/-- `usb_device_descriptor`, in the fields the validator looks at and those that number strings. -/
structure DeviceHeader where
  bLength : Byte
  bDescriptorType : Byte
  bMaxPacketSize0 : Byte
  iManufacturer : Byte
  iProduct : Byte
  iSerialNumber : Byte
  deriving DecidableEq, Repr

/-- `DeviceQualifier`, its descriptor in the fields the validator looks at. -/
structure DeviceQualifier extends ConfigurationTable where
  bLength : Byte
  bDescriptorType : Byte
  bMaxPacketSize0 : Byte

/-- A `Device` with its strings. -/
structure DeviceObject extends ConfigurationTable where
  descriptor : DeviceHeader
  strings : DeviceStrings
  /-- All constructors allocate `strings`. -/
  allocated : strings.strings ≠ []
  /-- Strings without a block: `realloc` to the `bLength` 0 of a device's answer gives a null pointer. -/
  noDescriptor : USBStringPtr → Bool
  qualifier : Option DeviceQualifier

/-- `bMaxPacketSize0!=8&&bMaxPacketSize0!=16&&..` does not hold. -/
def packetSizeDefined (bMaxPacketSize0 : Byte) : Prop :=
  bMaxPacketSize0 = 8 ∨ bMaxPacketSize0 = 16 ∨ bMaxPacketSize0 = 32 ∨ bMaxPacketSize0 = 64

instance (bMaxPacketSize0 : Byte) : Decidable (packetSizeDefined bMaxPacketSize0) :=
  inferInstanceAs (Decidable (_ ∨ _ ∨ _ ∨ _))

/-- The loop both validators have over their configurations. -/
def ConfigurationTable.configurationsDefined (t : ConfigurationTable) (objectType : DeObjType)
    (highSpeed : Bool) : Except Fault DefinitionError :=
  scan DefinitionError.failed {}
    (fun i => (load t.configurations i).bind fun config =>
      match config with
      | none => .ok ⟨.nullObject, 0x0, objectType, UInt8.ofNat (i + 1), 0, 0, 0⟩
      | some config =>
        let value := config.descriptor.bConfigurationValue
        if value.toNat ≠ i + 1 then
          .ok ⟨.misplacedObject, value.toUInt16, objectType, UInt8.ofNat (i + 1), 0, 0, 0⟩
        else config.guardedIsDefined highSpeed)
    t.bNumConfigurations.toNat 0

def DeviceQualifier.isDefined (q : DeviceQualifier) : Except Fault DefinitionError :=
  if q.bLength ≠ 10 then .ok ⟨.invalidDescriptor, 0x01, .qualifier, 0, 0, 0, 0⟩
  else if q.bDescriptorType ≠ USB_DT_DEVICE_QUALIFIER then
    .ok ⟨.invalidDescriptor, 0x02, .qualifier, 0, 0, 0, 0⟩
  else if ¬ packetSizeDefined q.bMaxPacketSize0 then
    .ok ⟨.invalidDescriptor, 0x08, .qualifier, 0, 0, 0, 0⟩
  else if q.bNumConfigurations = 0 then .ok ⟨.invalidDescriptor, 0x09, .qualifier, 0, 0, 0, 0⟩
  else q.configurationsDefined .osConfig true

namespace DeviceObject

/-- `strings[0][0]`, with a descriptor to look into. -/
def stringZero (d : DeviceObject) : Except Fault USBString :=
  (load d.strings.strings 0).bind fun strings => (deref strings).bind fun strings =>
    (deref strings.head?).bind fun string =>
      if d.noDescriptor string then .error .nullDereference else .ok (d.strings.objects string)

def getLanguageCount (d : DeviceObject) : Except Fault Byte :=
  d.stringZero.bind fun string => .ok string.getCharCount

def getLanguageByIndex (d : DeviceObject) (index : Byte) : Except Fault UInt16 :=
  d.getLanguageCount.bind fun count =>
    if count ≤ index then .ok 0
    else d.stringZero.bind fun string => .ok (string.descriptor.wData.getD index.toNat 0)

/-- The loop over the strings of an index ends at the null entry behind them. -/
def isStringDefined (d : DeviceObject) (index : Byte) : Except Fault DefinitionError :=
  if index = 0 then .ok {}
  else (load d.strings.strings index.toNat).bind fun strings =>
    match strings with
    | none => .ok ⟨.nullObject, 0x0, .string, index, 0, 0, 0⟩
    | some strings => d.getLanguageCount.bind fun lc =>
      scan DefinitionError.failed {}
        (fun lngidx => (d.getLanguageByIndex (UInt8.ofNat lngidx)).bind fun langId =>
          if strings.any fun string => d.strings.languageOf string = langId then .ok {}
          else .ok ⟨.missingLanguage, langId, .string, index, 0, 0, 0⟩)
        lc.toNat 0

def stringZeroDefined (d : DeviceObject) : Except Fault DefinitionError :=
  (load d.strings.strings 0).bind fun strings =>
    match strings with
    | some (_ :: _) => d.getLanguageCount.bind fun lc =>
      if lc = 0 then .ok ⟨.missingLanguage, 0x0, .string, 0, 0, 0, 0⟩ else .ok {}
    | _ => .ok ⟨.nullObject, 0x0, .string, 0, 0, 0, 0⟩

/-- The strings of one configuration and its interfaces. -/
def configurationStrings (d : DeviceObject) (i : ℕ) : Except Fault DefinitionError :=
  (load d.configurations i).bind fun config => (deref config).bind fun config =>
    andThen DefinitionError.failed (d.isStringDefined config.descriptor.iConfiguration)
      (scan DefinitionError.failed {}
        (fun j => (config.guardedAlternateCount (UInt8.ofNat j)).bind fun count =>
          scan DefinitionError.failed {}
            (fun k => (config.guardedAlternate (UInt8.ofNat j) (UInt8.ofNat k)).bind fun i =>
              (deref i).bind fun i => d.isStringDefined i.descriptor.iInterface)
            count.toNat 0)
        config.descriptor.bNumInterfaces.toNat 0)

/-- The qualifier and the strings of its configurations.  The loop counts from 0 on, `get_configuration`
from 1 on. -/
def qualifierDefined (d : DeviceObject) : Except Fault DefinitionError :=
  match d.qualifier with
  | none => .ok {}
  | some q =>
    andThen DefinitionError.failed q.isDefined
      (scan DefinitionError.failed {}
        (fun i => (deref (q.getConfiguration (UInt8.ofNat i))).bind fun config =>
          d.isStringDefined config.descriptor.iConfiguration)
        q.bNumConfigurations.toNat 0)

def isDefined (d : DeviceObject) : Except Fault DefinitionError :=
  if d.descriptor.bLength ≠ 18 then .ok ⟨.invalidDescriptor, 0x01, .device, 0, 0, 0, 0⟩
  else if d.descriptor.bDescriptorType ≠ USB_DT_DEVICE then
    .ok ⟨.invalidDescriptor, 0x02, .device, 0, 0, 0, 0⟩
  else if ¬ packetSizeDefined d.descriptor.bMaxPacketSize0 then
    .ok ⟨.invalidDescriptor, 0x08, .device, 0, 0, 0, 0⟩
  else if d.bNumConfigurations = 0 then .ok ⟨.invalidDescriptor, 0x12, .device, 0, 0, 0, 0⟩
  else
    andThen DefinitionError.failed (d.configurationsDefined .config false)
      (andThen DefinitionError.failed d.stringZeroDefined
        (andThen DefinitionError.failed (d.isStringDefined d.descriptor.iManufacturer)
          (andThen DefinitionError.failed (d.isStringDefined d.descriptor.iProduct)
            (andThen DefinitionError.failed (d.isStringDefined d.descriptor.iSerialNumber)
              (andThen DefinitionError.failed
                (scan DefinitionError.failed {} d.configurationStrings d.bNumConfigurations.toNat 0)
                d.qualifierDefined)))))

end DeviceObject

/-! ## Configurations -/

/-- Every configuration is there, with the value of its place, and passes. -/
def ConfigurationTable.Defined (t : ConfigurationTable) (highSpeed : Bool) : Prop :=
  ∀ i (hi : i < t.configurations.length), ∃ config, t.configurations[i] = some config ∧
    config.descriptor.bConfigurationValue.toNat = i + 1 ∧ (config.isDefined highSpeed).error = .none

namespace ConfigurationTable

variable {t : ConfigurationTable} {objectType : DeObjType} {highSpeed : Bool}

theorem succeeds_configurationsDefined :
    Succeeds DefinitionError.failed (t.configurationsDefined objectType highSpeed) ↔
      t.Defined highSpeed := by
  unfold configurationsDefined Defined
  rw [succeeds_scan rfl, ← t.configurations_length]
  refine forall_congr' fun i => forall_congr' fun hi => ?_
  rw [Nat.zero_add, load_of_lt hi]
  cases t.configurations[i] with
  | none => simp [Except.bind, succeeds_ok, DefinitionError.failed_eq_false]
  | some config =>
    dsimp only [Except.bind]
    rw [config.guardedIsDefined_eq]
    split_ifs with hvalue
    · simp [succeeds_ok, DefinitionError.failed_eq_false, hvalue]
    · rw [succeeds_ok, DefinitionError.failed_eq_false]
      simp [not_not.1 hvalue]

/-- The loop stays inside the array, whatever is missing in it. -/
theorem returns_configurationsDefined (t : ConfigurationTable) (objectType : DeObjType)
    (highSpeed : Bool) : Returns (t.configurationsDefined objectType highSpeed) := by
  unfold configurationsDefined
  rw [returns_scan, ← t.configurations_length]
  intro i hi _
  rw [Nat.zero_add, load_of_lt hi]
  cases t.configurations[i] with
  | none => exact returns_ok _
  | some config =>
    dsimp only [Except.bind]
    rw [config.guardedIsDefined_eq]
    split_ifs <;> exact returns_ok _

end ConfigurationTable

/-- What `DeviceQualifier::is_defined` asks for. -/
structure DeviceQualifier.Valid (q : DeviceQualifier) : Prop where
  bLength : q.bLength = 10
  bDescriptorType : q.bDescriptorType = USB_DT_DEVICE_QUALIFIER
  packetSize : packetSizeDefined q.bMaxPacketSize0
  bNumConfigurations : q.bNumConfigurations ≠ 0
  configurations : q.Defined true

namespace DeviceQualifier

theorem returns_isDefined (q : DeviceQualifier) : Returns q.isDefined := by
  unfold isDefined
  split_ifs
  any_goals exact returns_ok _
  exact q.returns_configurationsDefined .osConfig true

theorem succeeds_isDefined {q : DeviceQualifier} :
    Succeeds DefinitionError.failed q.isDefined ↔ q.Valid := by
  unfold isDefined
  split_ifs with hl ht hp hn
  · exact iff_of_false (by simp [succeeds_ok, DefinitionError.failed_eq_false]) fun h => hl h.bLength
  · exact iff_of_false (by simp [succeeds_ok, DefinitionError.failed_eq_false])
      fun h => ht h.bDescriptorType
  · exact iff_of_false (by simp [succeeds_ok, DefinitionError.failed_eq_false])
      fun h => h.bNumConfigurations hn
  · rw [ConfigurationTable.succeeds_configurationsDefined]
    exact ⟨fun h => ⟨not_not.1 hl, not_not.1 ht, hp, hn, h⟩, Valid.configurations⟩
  · exact iff_of_false (by simp [succeeds_ok, DefinitionError.failed_eq_false]) fun h => hp h.packetSize

end DeviceQualifier

/-! ## Strings -/

namespace DeviceObject

variable {d : DeviceObject} {z : USBStringPtr}

theorem length_pos (d : DeviceObject) : 0 < d.strings.strings.length :=
  List.length_pos_iff.2 d.allocated

theorem row_eq {r : ℕ} (hr : r < d.strings.strings.length) :
    row d.strings.strings r = d.strings.strings[r].getD [] := by
  unfold row Slots.slot
  rw [List.getElem?_eq_getElem hr, Option.join_some]

structure Readable (d : DeviceObject) (z : USBStringPtr) : Prop where
  zero : d.strings.zero = some z
  descriptor : d.noDescriptor z = false

theorem load_zero_of_zero (h : d.strings.zero = some z) :
    ∃ strings, load d.strings.strings 0 = .ok (some (z :: strings)) := by
  have hpos := d.length_pos
  have hrow : (row d.strings.strings 0).head? = some z := h
  rw [row_eq hpos] at hrow
  rw [load_of_lt hpos]
  cases hstrings : d.strings.strings[0] with
  | none =>
    rw [hstrings] at hrow
    cases hrow
  | some strings =>
    rw [hstrings, Option.getD_some] at hrow
    obtain ⟨rest, rfl⟩ := List.head?_eq_some_iff.1 hrow
    exact ⟨rest, rfl⟩

theorem load_zero_of_none (h : d.strings.zero = none) :
    load d.strings.strings 0 = .ok none ∨ load d.strings.strings 0 = .ok (some []) := by
  have hpos := d.length_pos
  have hrow : (row d.strings.strings 0).head? = none := h
  rw [row_eq hpos] at hrow
  rw [load_of_lt hpos]
  cases hstrings : d.strings.strings[0] with
  | none => exact .inl rfl
  | some strings =>
    rw [hstrings, Option.getD_some, List.head?_eq_none_iff] at hrow
    rw [hrow]
    exact .inr rfl

theorem stringZero_of_zero (h : d.strings.zero = some z) :
    d.stringZero =
      if d.noDescriptor z then .error .nullDereference else .ok (d.strings.objects z) := by
  obtain ⟨strings, hload⟩ := load_zero_of_zero h
  unfold stringZero
  rw [hload]
  rfl

theorem Readable.stringZero (h : d.Readable z) : d.stringZero = .ok (d.strings.objects z) := by
  rw [stringZero_of_zero h.zero, h.descriptor]
  rfl

theorem Readable.getLanguageCount (h : d.Readable z) :
    d.getLanguageCount = .ok d.strings.getLanguageCount := by
  unfold DeviceObject.getLanguageCount DeviceStrings.getLanguageCount
  rw [h.stringZero, h.zero]
  rfl

theorem Readable.getLanguageByIndex (h : d.Readable z) (index : Byte) :
    d.getLanguageByIndex index = .ok (d.strings.getLanguageByIndex index) := by
  unfold DeviceObject.getLanguageByIndex DeviceStrings.getLanguageByIndex DeviceStrings.languageAt
  rw [h.getLanguageCount, h.stringZero, h.zero]
  dsimp only [Except.bind]
  split_ifs <;> rfl

theorem forall_languages {P : UInt16 → Prop} (s : DeviceStrings) :
    (∀ l ∈ s.languages, P l) ↔
      ∀ i < s.getLanguageCount.toNat, P (s.getLanguageByIndex (UInt8.ofNat i)) := by
  unfold DeviceStrings.languages
  rw [List.forall_mem_map]
  refine forall_congr' fun i => ?_
  rw [List.mem_range]
  refine imp_congr_right fun hi => ?_
  have hof : (UInt8.ofNat i).toNat = i := toNat_ofNat_of_lt hi
  have hindex : ¬ s.getLanguageCount ≤ UInt8.ofNat i :=
    UInt8.not_le.2 (UInt8.lt_iff_toNat_lt.2 (hof.symm ▸ hi))
  rw [DeviceStrings.getLanguageByIndex, if_neg hindex, hof]

theorem languages_eq_nil_iff (s : DeviceStrings) : s.languages = [] ↔ s.getLanguageCount = 0 := by
  unfold DeviceStrings.languages
  rw [List.map_eq_nil_iff, List.range_eq_nil]
  exact UInt8.toNat_inj (b := 0)

theorem exists_zero {s : DeviceStrings} (h : s.languages ≠ []) : ∃ z, s.zero = some z := by
  refine Option.ne_none_iff_exists'.1 fun hzero => h ?_
  rw [languages_eq_nil_iff, DeviceStrings.getLanguageCount, hzero]

/-- The strings of an index are there in every language; index 0 stands for no string. -/
def Complete (d : DeviceObject) (index : Byte) : Prop :=
  index ≠ 0 → ∀ l ∈ d.strings.languages, ∃ string ∈ row d.strings.strings index.toNat,
    d.strings.languageOf string = l

theorem Readable.returns_isStringDefined (h : d.Readable z) (index : Byte) :
    Returns (d.isStringDefined index) ↔ index.toNat ≤ d.strings.maxStringIdx := by
  have hpos := d.length_pos
  unfold isStringDefined DeviceStrings.maxStringIdx
  split_ifs with h0
  · subst h0
    exact iff_of_true (returns_ok _) (Nat.zero_le _)
  · rcases Nat.lt_or_ge index.toNat d.strings.strings.length with hlt | hge
    · refine iff_of_true ?_ (by omega)
      rw [load_of_lt hlt]
      cases d.strings.strings[index.toNat] with
      | none => exact returns_ok _
      | some strings =>
        dsimp only [Except.bind]
        rw [h.getLanguageCount]
        refine (returns_scan _ _).2 fun i _ _ => ?_
        rw [h.getLanguageByIndex]
        dsimp only [Except.bind]
        split_ifs <;> exact returns_ok _
    · refine iff_of_false ?_ (by omega)
      rw [load_of_le hge]
      exact not_returns_error _

theorem Readable.succeeds_isStringDefined (h : d.Readable z) (hl : d.strings.languages ≠ [])
    (index : Byte) : Succeeds DefinitionError.failed (d.isStringDefined index) ↔ d.Complete index := by
  by_cases h0 : index = 0
  · unfold isStringDefined
    rw [if_pos h0]
    exact iff_of_true (succeeds_ok.2 rfl) fun hne => absurd h0 hne
  unfold Complete
  rw [imp_iff_right h0]
  obtain ⟨l, hmem⟩ := List.exists_mem_of_ne_nil _ hl
  -- A row that is not there has no string for the first language.
  have hempty : row d.strings.strings index.toNat = [] →
      ¬ ∀ l ∈ d.strings.languages, ∃ string ∈ row d.strings.strings index.toNat,
        d.strings.languageOf string = l := by
    intro hrow hall
    obtain ⟨string, hstring, -⟩ := hall l hmem
    rw [hrow] at hstring
    exact List.not_mem_nil hstring
  unfold isStringDefined
  rw [if_neg h0]
  rcases Nat.lt_or_ge index.toNat d.strings.strings.length with hlt | hge
  · have hrow := row_eq hlt
    rw [load_of_lt hlt]
    cases hstrings : d.strings.strings[index.toNat] with
    | none =>
      rw [hstrings] at hrow
      exact iff_of_false (by simp [Except.bind, succeeds_ok, DefinitionError.failed_eq_false])
        (hempty hrow)
    | some strings =>
      rw [hstrings, Option.getD_some] at hrow
      dsimp only [Except.bind]
      rw [h.getLanguageCount, hrow, forall_languages]
      refine (succeeds_scan rfl _ _).trans (forall_congr' fun i => forall_congr' fun _ => ?_)
      rw [h.getLanguageByIndex, Nat.zero_add]
      dsimp only [Except.bind]
      split_ifs with hany
      · refine iff_of_true (succeeds_ok.2 rfl) ?_
        simpa using hany
      · refine iff_of_false (by simp [succeeds_ok, DefinitionError.failed_eq_false]) ?_
        simpa using hany
  · rw [load_of_le hge]
    refine iff_of_false (not_succeeds_error _) (hempty ?_)
    rw [row, Slots.slot_eq_none_of_le hge, Option.getD_none]

theorem stringZeroDefined_of_none (h : d.strings.zero = none) :
    d.stringZeroDefined = .ok ⟨.nullObject, 0x0, .string, 0, 0, 0, 0⟩ := by
  unfold stringZeroDefined
  rcases load_zero_of_none h with hload | hload
  · rw [hload]
    rfl
  · rw [hload]
    rfl

theorem stringZeroDefined_of_zero (h : d.strings.zero = some z) :
    d.stringZeroDefined = d.getLanguageCount.bind fun lc =>
      if lc = 0 then .ok ⟨.missingLanguage, 0x0, .string, 0, 0, 0, 0⟩ else .ok {} := by
  obtain ⟨strings, hload⟩ := load_zero_of_zero h
  unfold stringZeroDefined
  rw [hload]
  rfl

/-- The descriptor of string zero is the one pointer that is not looked at first. -/
theorem returns_stringZeroDefined :
    Returns d.stringZeroDefined ↔ ∀ z, d.strings.zero = some z → d.noDescriptor z = false := by
  cases hzero : d.strings.zero with
  | none =>
    rw [stringZeroDefined_of_none hzero]
    exact iff_of_true (returns_ok _) fun z hz => nomatch hz
  | some z =>
    rw [stringZeroDefined_of_zero hzero]
    cases hblock : d.noDescriptor z with
    | true =>
      unfold getLanguageCount
      rw [stringZero_of_zero hzero, hblock]
      exact iff_of_false (not_returns_error _) fun h => by simpa [hblock] using h z rfl
    | false =>
      rw [Readable.getLanguageCount ⟨hzero, hblock⟩]
      refine iff_of_true ?_ fun z' hz' => Option.some.inj hz' ▸ hblock
      dsimp only [Except.bind]
      split_ifs <;> exact returns_ok _

theorem succeeds_stringZeroDefined :
    Succeeds DefinitionError.failed d.stringZeroDefined ↔
      ∃ z, d.Readable z ∧ d.strings.languages ≠ [] := by
  constructor
  · intro hpasses
    cases hzero : d.strings.zero with
    | none =>
      rw [stringZeroDefined_of_none hzero, succeeds_ok] at hpasses
      cases hpasses
    | some z =>
      have hread : d.Readable z := ⟨hzero, returns_stringZeroDefined.1 hpasses.returns z hzero⟩
      rw [stringZeroDefined_of_zero hzero, hread.getLanguageCount] at hpasses
      refine ⟨z, hread, fun hnil => ?_⟩
      rw [(languages_eq_nil_iff _).1 hnil] at hpasses
      obtain ⟨rc, hrc, hfailed⟩ := hpasses
      obtain rfl := Except.ok.inj hrc
      cases hfailed
  · rintro ⟨z, hread, hlanguages⟩
    rw [stringZeroDefined_of_zero hread.zero, hread.getLanguageCount]
    have hcount : d.strings.getLanguageCount ≠ 0 := fun h0 =>
      hlanguages ((languages_eq_nil_iff _).2 h0)
    dsimp only [Except.bind]
    rw [if_neg hcount, succeeds_ok]
    rfl

end DeviceObject

/-! ## Everything that refers to a string -/

theorem map_some_reduceOption {α : Type*} {l : List (Option α)} (h : none ∉ l) :
    l.reduceOption.map some = l := by
  induction l with
  | nil => rfl
  | cons o l ih =>
    rw [List.mem_cons, not_or] at h
    obtain ⟨hne, hrest⟩ := h
    obtain ⟨a, rfl⟩ := Option.ne_none_iff_exists'.1 (Ne.symm hne)
    rw [List.reduceOption_cons_of_some, List.map_cons, ih hrest]

def Configuration.stringIndices (c : Configuration) : List Byte :=
  c.descriptor.iConfiguration :: c.interfaces.map fun i => i.descriptor.iInterface

namespace DeviceObject

variable {d : DeviceObject} {z : USBStringPtr}

/-- The string indices of the descriptors, in the order of the checks. -/
def references (d : DeviceObject) : List Byte :=
  [d.descriptor.iManufacturer, d.descriptor.iProduct, d.descriptor.iSerialNumber] ++
    d.configurations.reduceOption.flatMap Configuration.stringIndices

theorem alternateStrings_eq {config : Configuration} {rows : List (InterfaceGroup × List Interface)}
    (h : config.Layout rows) {number : Byte} (hn : number.toNat < rows.length) :
    ((config.guardedAlternateCount number).bind fun count =>
      scan DefinitionError.failed {}
        (fun k => (config.guardedAlternate number (UInt8.ofNat k)).bind fun i =>
          (deref i).bind fun i => d.isStringDefined i.descriptor.iInterface)
        count.toNat 0) =
      inOrder DefinitionError.failed {}
        (rows[number.toNat].2.map fun i => d.isStringDefined i.descriptor.iInterface) := by
  have hcount := h.getInterfaceAlternateCount hn
  rw [config.guardedAlternateCount_eq (h.number_lt hn)]
  show scan _ _ _ (config.getInterfaceAlternateCount number).toNat 0 = _
  rw [hcount]
  refine scan_eq_map _ fun k hk => ?_
  have hbyte : (UInt8.ofNat k).toNat = k := toNat_ofNat_of_lt (hcount ▸ hk)
  have hget : config.getInterfaceAlternate number (UInt8.ofNat k) = _ :=
    h.getInterfaceAlternate hn (hbyte.symm ▸ hk)
  simp only [hbyte] at hget
  rw [config.guardedAlternate_eq, hget]
  rfl

theorem configurationStrings_eq {i : ℕ} {config : Configuration} {highSpeed : Bool}
    (hi : i < d.configurations.length) (hconfig : d.configurations[i] = some config)
    (h : (config.isDefined highSpeed).error = .none) :
    d.configurationStrings i =
      inOrder DefinitionError.failed {} (config.stringIndices.map d.isStringDefined) := by
  obtain ⟨rows, hrows⟩ := Configuration.layout_of_isDefined h
  unfold configurationStrings
  rw [load_of_lt hi, hconfig]
  show andThen _ _ (scan _ _ _ _ 0) = _
  rw [← hrows.length_rows, Configuration.stringIndices, List.map_cons, inOrder, hrows.interfaces_eq,
    List.map_map, List.map_flatMap]
  congr 1
  refine (scan_eq_map rows fun j hj => ?_).trans (inOrder_flatMap rfl _ _)
  have hbyte : (UInt8.ofNat j).toNat = j := toNat_ofNat_of_lt (hrows.length_rows ▸ hj)
  have hrow : (config.guardedAlternateCount (UInt8.ofNat j)).bind _ = _ :=
    alternateStrings_eq (d := d) hrows (hbyte.symm ▸ hj)
  simp only [hbyte] at hrow
  exact hrow

theorem configurationsStrings_eq (h : d.Defined false) :
    scan DefinitionError.failed {} d.configurationStrings d.bNumConfigurations.toNat 0 =
      inOrder DefinitionError.failed {}
        ((d.configurations.reduceOption.flatMap Configuration.stringIndices).map d.isStringDefined) := by
  have hfull : d.configurations.reduceOption.map some = d.configurations := by
    refine map_some_reduceOption fun hnone => ?_
    obtain ⟨i, hi, hi'⟩ := List.getElem_of_mem hnone
    obtain ⟨config, hconfig, -⟩ := h i hi
    cases hi'.symm.trans hconfig
  have hlength : d.bNumConfigurations.toNat = d.configurations.reduceOption.length := by
    rw [← d.configurations_length, ← hfull, List.length_map, hfull]
  rw [hlength, List.map_flatMap, ← inOrder_flatMap rfl]
  refine scan_eq_map _ fun i hi => ?_
  have hi' : i < d.configurations.length := by rwa [d.configurations_length, hlength]
  obtain ⟨config, hconfig, -, hpass⟩ := h i hi'
  have hget : d.configurations.reduceOption[i] = config := by
    have hmap : (d.configurations.reduceOption.map some)[i]? = d.configurations[i]? := by rw [hfull]
    rw [List.getElem?_map, List.getElem?_eq_getElem hi, List.getElem?_eq_getElem hi', hconfig] at hmap
    exact Option.some.inj (Option.some.inj hmap)
  rw [hget]
  exact configurationStrings_eq hi' hconfig hpass

/-- What the validator asks of the descriptor itself. -/
structure HeaderValid (d : DeviceObject) : Prop where
  bLength : d.descriptor.bLength = 18
  bDescriptorType : d.descriptor.bDescriptorType = USB_DT_DEVICE
  packetSize : packetSizeDefined d.descriptor.bMaxPacketSize0
  bNumConfigurations : d.bNumConfigurations ≠ 0

theorem isDefined_of_not_headerValid (h : ¬ d.HeaderValid) :
    ∃ rc, d.isDefined = .ok rc ∧ rc.failed = true := by
  unfold isDefined
  split_ifs with hl ht hp hn
  · exact ⟨_, rfl, rfl⟩
  · exact ⟨_, rfl, rfl⟩
  · exact ⟨_, rfl, rfl⟩
  · exact absurd ⟨not_not.1 hl, not_not.1 ht, hp, hn⟩ h
  · exact ⟨_, rfl, rfl⟩

theorem isDefined_of_header (h : d.HeaderValid) :
    d.isDefined = andThen DefinitionError.failed (d.configurationsDefined .config false)
      (andThen DefinitionError.failed d.stringZeroDefined
        (andThen DefinitionError.failed (d.isStringDefined d.descriptor.iManufacturer)
          (andThen DefinitionError.failed (d.isStringDefined d.descriptor.iProduct)
            (andThen DefinitionError.failed (d.isStringDefined d.descriptor.iSerialNumber)
              (andThen DefinitionError.failed
                (scan DefinitionError.failed {} d.configurationStrings d.bNumConfigurations.toNat 0)
                d.qualifierDefined))))) := by
  unfold isDefined
  rw [if_neg (not_not.2 h.bLength), if_neg (not_not.2 h.bDescriptorType),
    if_neg (not_not.2 h.packetSize), if_neg h.bNumConfigurations]

theorem isDefined_of_not_defined (h : d.HeaderValid) (hconfigurations : ¬ d.Defined false) :
    d.isDefined = d.configurationsDefined .config false := by
  rw [isDefined_of_header h, andThen_of_not_succeeds]
  rwa [ConfigurationTable.succeeds_configurationsDefined]

/-- The rest of the validator: string zero, the strings in a row and the qualifier. -/
theorem isDefined_eq (h : d.HeaderValid) (hconfigurations : d.Defined false) :
    d.isDefined = andThen DefinitionError.failed d.stringZeroDefined
      (andThen DefinitionError.failed
        (inOrder DefinitionError.failed {} (d.references.map d.isStringDefined))
        d.qualifierDefined) := by
  unfold references
  rw [isDefined_of_header h,
    andThen_of_succeeds (ConfigurationTable.succeeds_configurationsDefined.2 hconfigurations),
    configurationsStrings_eq hconfigurations]
  simp only [List.cons_append, List.nil_append, List.map_cons, inOrder, andThen_assoc]

theorem Readable.succeeds_references (h : d.Readable z) (hlanguages : d.strings.languages ≠ []) :
    Succeeds DefinitionError.failed
      (inOrder DefinitionError.failed {} (d.references.map d.isStringDefined)) ↔
        ∀ r ∈ d.references, d.Complete r := by
  rw [succeeds_inOrder rfl, List.forall_mem_map]
  exact forall₂_congr fun r _ => h.succeeds_isStringDefined hlanguages r

theorem succeeds_isDefined : Succeeds DefinitionError.failed d.isDefined ↔
    d.HeaderValid ∧ d.Defined false ∧ (∃ z, d.Readable z ∧ d.strings.languages ≠ []) ∧
      (∀ r ∈ d.references, d.Complete r) ∧ Succeeds DefinitionError.failed d.qualifierDefined := by
  by_cases hheader : d.HeaderValid
  · rw [and_iff_right hheader]
    by_cases hconfigurations : d.Defined false
    · rw [and_iff_right hconfigurations, isDefined_eq hheader hconfigurations, succeeds_andThen,
        succeeds_stringZeroDefined, succeeds_andThen]
      exact and_congr_right fun ⟨z, hread, hlanguages⟩ =>
        and_congr_left fun _ => hread.succeeds_references hlanguages
    · rw [isDefined_of_not_defined hheader hconfigurations,
        ConfigurationTable.succeeds_configurationsDefined]
      exact iff_of_false hconfigurations fun h => hconfigurations h.1
  · obtain ⟨rc, hrc, hfailed⟩ := isDefined_of_not_headerValid hheader
    rw [hrc, succeeds_ok, hfailed]
    exact iff_of_false Bool.noConfusion fun h => hheader h.1

/-! ## Devices built by hand -/

/-- The constructors without a proxy. -/
def ofDescriptor (descriptor : DeviceHeader) (bNumConfigurations : Byte) : DeviceObject where
  bNumConfigurations := bNumConfigurations
  configurations := List.replicate bNumConfigurations.toNat none
  configurations_length := List.length_replicate
  descriptor := descriptor
  strings := .new false 0 ⟨4, 3, [0x0409]⟩
  allocated := List.cons_ne_nil _ _
  noDescriptor := fun _ => false
  qualifier := none

/-- A call of the owner of a device; a configuration that is added is a new object. -/
inductive Call
  | addConfiguration (config : Configuration)
  | setDeviceQualifier (qualifier : Option DeviceQualifier)
  | strings (call : StringCall)

def step (d : DeviceObject) : Call → Option DeviceObject
  | .addConfiguration config =>
    some { d with toConfigurationTable := d.toConfigurationTable.addConfiguration config }
  | .setDeviceQualifier qualifier => some { d with qualifier := qualifier }
  | .strings call =>
    match h : d.strings.step call with
    | none => none
    | some strings =>
      some { d with strings := strings, allocated := DeviceStrings.allocated_step h d.allocated }

/-- A configuration with one interface and no endpoints. -/
def oneInterface (bDescriptorType : Byte) : Configuration :=
  (Configuration.new ⟨9, bDescriptorType, 18, 1, 1, 0, 0x80, 50⟩).addInterface
    (.new ⟨9, USB_DT_INTERFACE, 0, 0, 0, 0xff, 0, 0, 0⟩ .none)

/-- The manufacturer string is missing, and there is no room for it either. -/
def missingManufacturer : List Call := [.addConfiguration (oneInterface USB_DT_CONFIG)]

/-- Everything is there. -/
def withManufacturer : List Call :=
  [.addConfiguration (oneInterface USB_DT_CONFIG), .strings (.new ⟨1, 0x0409, ⟨4, 3, [65]⟩⟩),
    .strings (.addString 1)]

/-- A qualifier that passes, with its configuration. -/
def otherSpeed : DeviceQualifier where
  toConfigurationTable := .ofAnswers [oneInterface USB_DT_OTHER_SPEED_CONFIG] (by decide)
  bLength := 10
  bDescriptorType := USB_DT_DEVICE_QUALIFIER
  bMaxPacketSize0 := 8

/-! ## What a verdict without error means -/

/-- `get_string` finds what the validator saw, language 0 being the first of the list. -/
theorem Complete.getString {r : Byte} {l : UInt16} (h : d.Complete r) (hr : r ≠ 0)
    (hl : l ∈ d.strings.languages) : ∃ string, d.strings.getString r l = some string := by
  have hasked : d.strings.askedLanguage r l ∈ d.strings.languages := by
    unfold DeviceStrings.askedLanguage
    split_ifs
    · have hcount : 0 < d.strings.getLanguageCount.toNat := by
        have hlength := List.length_pos_of_mem hl
        rwa [DeviceStrings.languages, List.length_map, List.length_range] at hlength
      exact List.mem_map.2 ⟨0, List.mem_range.2 hcount, rfl⟩
    · exact hl
  obtain ⟨string, hstring, hlanguage⟩ := h hr _ hasked
  rw [DeviceStrings.getString_eq, ← Option.isSome_iff_exists, List.find?_isSome]
  exact ⟨string, hstring, decide_eq_true hlanguage⟩

/-- **A device on which the validator returns no error has all its configurations, interfaces and
endpoints where the lookups expect them, and the strings its descriptors refer to in every language of the
list.** -/
theorem isDefined_sound (d : DeviceObject) (rc : DefinitionError)
    (h : d.isDefined = .ok rc) (hrc : rc.error = .none) :
    (∀ v, 1 ≤ v → v ≤ d.bNumConfigurations → ∃ c, d.getConfiguration v = some c ∧
      c.descriptor.bConfigurationValue = v ∧
      c.descriptor.wTotalLength.toNat = c.getFullDescriptorLength ∧
      ∀ number < c.descriptor.bNumInterfaces, 0 < c.getInterfaceAlternateCount number ∧
        ∀ a < c.getInterfaceAlternateCount number, ∃ i, c.getInterfaceAlternate number a = some i ∧
          i.descriptor.bInterfaceNumber = number ∧ i.descriptor.bAlternateSetting = a ∧
          ∀ index < i.descriptor.bNumEndpoints, ∃ ep, i.getEndpointByIdx index = some ep ∧
            ep.descriptor.bEndpointAddress &&& 0x70 = 0) ∧
    ∀ r ∈ d.references, r ≠ 0 → ∀ l ∈ d.strings.languages, ∃ string,
      d.strings.getString r l = some string := by
  have hpasses : Succeeds DefinitionError.failed d.isDefined :=
    ⟨rc, h, DefinitionError.failed_eq_false.2 hrc⟩
  obtain ⟨-, hconfigurations, -, hcomplete, -⟩ := succeeds_isDefined.1 hpasses
  refine ⟨fun v h1 hv => ?_, fun r hr hne l hl => (hcomplete r hr).getString hne hl⟩
  obtain ⟨hlt, hget⟩ := ConfigurationTable.getConfiguration_of_mem h1 hv
  obtain ⟨c, hc, hvalue, hdefined⟩ := hconfigurations _ hlt
  have h1' : (1 : ℕ) ≤ v.toNat := UInt8.le_iff_toNat_le.1 h1
  refine ⟨c, hget.trans hc, UInt8.toNat_inj.1 (by omega), ?_, fun number hnumber => ?_⟩
  · rw [(Configuration.isDefined_ok hdefined).2.1, Configuration.length_getFullDescriptor]
  · exact Configuration.interfaces_of_isDefined hdefined number hnumber

/-- A printer with its two endpoints, in two alternate settings, and with the strings its descriptors ask for. -/
def printerAttached : List Call :=
  [.addConfiguration ([0, 1].foldl (fun c alternate => c.addInterface
      (((Interface.new ⟨9, USB_DT_INTERFACE, 0, alternate, 2, 7, 1, 2, 1⟩ .none).setEndpoint 0
        ⟨⟨7, USB_DT_ENDPOINT, 0x01, 2, 64, 0, 0, 0⟩⟩).setEndpoint 1
          ⟨⟨7, USB_DT_ENDPOINT, 0x82, 2, 64, 0, 0, 0⟩⟩))
      (Configuration.new ⟨9, USB_DT_CONFIG, 55, 1, 1, 0, 0x80, 50⟩)),
    .strings (.new ⟨1, 0x0409, ⟨4, 3, [65]⟩⟩), .strings (.addString 1)]

def printer : DeviceObject :=
  (Runs.run step (ofDescriptor ⟨18, USB_DT_DEVICE, 8, 1, 0, 0⟩ 1) printerAttached).get rfl

theorem isDefined_sound_printer :
    Runs.run step (ofDescriptor ⟨18, USB_DT_DEVICE, 8, 1, 0, 0⟩ 1) printerAttached = some printer ∧
      (∃ c i ep, printer.getConfiguration 1 = some c ∧ c.getInterfaceAlternate 0 1 = some i ∧
        i.getEndpointByIdx 1 = some ep ∧ ep.descriptor.bEndpointAddress &&& 0x70 = 0) ∧
      ∃ string, printer.strings.getString 1 0x0409 = some string := by
  obtain ⟨hconfigurations, hstrings⟩ := isDefined_sound printer {} (by decide) rfl
  refine ⟨(Option.some_get _).symm, ?_, hstrings 1 (by decide) (by decide) 0x0409 (by decide)⟩
  obtain ⟨c, hc, -, -, hinterfaces⟩ := hconfigurations 1 (by decide) (by decide)
  obtain ⟨-, halternates⟩ := hinterfaces 0 (by cases hc; decide)
  obtain ⟨i, hi, -, -, hendpoints⟩ := halternates 1 (by cases hc; decide)
  obtain ⟨ep, hep, haddress⟩ := hendpoints 1 (by cases hc; cases hi; decide)
  exact ⟨c, i, ep, hc, hi, hep, haddress⟩

/-! ## When there is a verdict -/

/-- The validator of a qualifier that passes is followed by a lookup of configuration 0. -/
theorem returns_qualifierDefined :
    Returns d.qualifierDefined ↔ ∀ q, d.qualifier = some q → ¬ q.Valid := by
  unfold qualifierDefined
  cases d.qualifier with
  | none => exact iff_of_true (returns_ok _) fun q hq => nomatch hq
  | some q =>
    rw [returns_andThen, and_iff_right q.returns_isDefined, DeviceQualifier.succeeds_isDefined]
    constructor
    · rintro h q' hq' hvalid
      obtain rfl := Option.some.inj hq'
      have hpos := one_le_toNat hvalid.bNumConfigurations
      exact not_returns_error _ ((returns_scan _ _).1 (h hvalid) 0 hpos fun k hk => nomatch hk)
    · exact fun h hvalid => absurd hvalid (h q rfl)

/-- What keeps the validator inside its arrays: when the descriptor and the configurations pass, string
zero has a descriptor; when there is a language too, no index is behind `strings`, up to the first of a
string that is not complete; and when all are complete the qualifier does not pass. -/
def Safe (d : DeviceObject) : Prop :=
  d.HeaderValid → d.Defined false →
    (∀ z, d.strings.zero = some z → d.noDescriptor z = false) ∧
    (d.strings.languages ≠ [] →
      (∀ before r behind, d.references = before ++ r :: behind → (∀ s ∈ before, d.Complete s) →
        r.toNat ≤ d.strings.maxStringIdx) ∧
      ((∀ r ∈ d.references, d.Complete r) → ∀ q, d.qualifier = some q → ¬ q.Valid))

theorem Readable.returns_references (h : d.Readable z) (hlanguages : d.strings.languages ≠ []) :
    Returns (inOrder DefinitionError.failed {} (d.references.map d.isStringDefined)) ↔
      ∀ before r behind, d.references = before ++ r :: behind → (∀ s ∈ before, d.Complete s) →
        r.toNat ≤ d.strings.maxStringIdx := by
  rw [returns_inOrder]
  constructor
  · intro hall before r behind hsplit hcomplete
    rw [← h.returns_isStringDefined]
    refine hall (before.map d.isStringDefined) _ (behind.map d.isStringDefined) ?_ ?_
    · rw [hsplit, List.map_append, List.map_cons]
    · rw [List.forall_mem_map]
      exact fun s hs => (h.succeeds_isStringDefined hlanguages s).2 (hcomplete s hs)
  · intro hall before x behind hsplit hpasses
    obtain ⟨before, rest, hreferences, rfl, hrest⟩ := List.map_eq_append_iff.1 hsplit
    obtain ⟨r, behind, rfl, rfl, rfl⟩ := List.map_eq_cons_iff.1 hrest
    rw [List.forall_mem_map] at hpasses
    rw [h.returns_isStringDefined]
    exact hall before r behind hreferences fun s hs =>
      (h.succeeds_isStringDefined hlanguages s).1 (hpasses s hs)

/-- **The validator comes to a verdict exactly on the devices that are safe.** -/
theorem returns_isDefined_iff (d : DeviceObject) : Returns d.isDefined ↔ d.Safe := by
  unfold Safe
  by_cases hheader : d.HeaderValid
  · rw [forall_prop_of_true hheader]
    by_cases hconfigurations : d.Defined false
    · rw [forall_prop_of_true hconfigurations, isDefined_eq hheader hconfigurations, returns_andThen,
        returns_stringZeroDefined]
      refine and_congr_right fun hblock => ?_
      have hrest : ∀ z, d.Readable z → d.strings.languages ≠ [] →
          (Returns (andThen DefinitionError.failed
            (inOrder DefinitionError.failed {} (d.references.map d.isStringDefined))
            d.qualifierDefined) ↔ _) :=
        fun z hread hlanguages => by
          rw [returns_andThen, hread.returns_references hlanguages, hread.succeeds_references hlanguages,
            returns_qualifierDefined]
      rw [succeeds_stringZeroDefined]
      constructor
      · intro h hlanguages
        obtain ⟨z, hz⟩ := exists_zero hlanguages
        have hread : d.Readable z := ⟨hz, hblock z hz⟩
        exact (hrest z hread hlanguages).1 (h ⟨z, hread, hlanguages⟩)
      · rintro h ⟨z, hread, hlanguages⟩
        exact (hrest z hread hlanguages).2 (h hlanguages)
    · rw [isDefined_of_not_defined hheader hconfigurations]
      exact iff_of_true (d.returns_configurationsDefined .config false) fun h => absurd h hconfigurations
  · obtain ⟨rc, hrc, -⟩ := isDefined_of_not_headerValid hheader
    exact iff_of_true ⟨rc, hrc⟩ fun h => absurd h hheader

theorem not_returns_isDefined :
    (¬ ∀ descriptor bNumConfigurations calls d,
      Runs.run step (ofDescriptor descriptor bNumConfigurations) calls = some d → d.qualifier = none →
        Returns d.isDefined) ∧
    ¬ ∀ descriptor bNumConfigurations calls d,
      Runs.run step (ofDescriptor descriptor bNumConfigurations) calls = some d →
        (∀ r ∈ d.references, r.toNat ≤ d.strings.maxStringIdx) → Returns d.isDefined := by
  constructor
  · intro h
    have hreturns := h ⟨18, USB_DT_DEVICE, 8, 1, 0, 0⟩ 1 missingManufacturer _ rfl rfl
    exact not_returns_error .outOfRange hreturns
  · intro h
    have hreferences : ∀ r ∈ ([1, 0, 0, 0, 0] : List Byte), r.toNat ≤ 1 := by simp
    have hreturns := h ⟨18, USB_DT_DEVICE, 8, 1, 0, 0⟩ 1
      (withManufacturer ++ [.setDeviceQualifier (some otherSpeed)]) _ rfl
    exact not_returns_error .nullDereference (hreturns hreferences)

end DeviceObject

end UsbProxy
